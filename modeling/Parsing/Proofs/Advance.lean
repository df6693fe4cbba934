import Mathlib.Order.Basic
import Parsing.Position

/-!
# Moving on in a source

A character takes one step of three kinds, and a text as many steps as it has characters: it moves
down by its line feeds and to the right by its other characters, of which a tab takes a whole tab at
most. There is a next position where there is room for that. So every character moves the position
forward and keeps the name of the source, and so do the items that take up the room of a character.
-/

namespace Parsing

namespace Position

variable {p q r : Position}

/-- The order of reading, up to the names of the sources. -/
instance : Preorder Position where
  le_refl p := by rw [le_iff]; omega
  le_trans p q r := by simp only [le_iff]; omega
  lt_iff_le_not_ge p q := by simp only [le_iff, lt_iff]; omega

theorem le_iff_lt_or_beq : p ≤ q ↔ p < q ∨ (p == q) = true := by
  rw [le_iff, lt_iff, beq_iff]
  omega

/-! ## Lines and columns -/

theorem next?_eq_some_iff {c d : Coordinate} : c.next? = some d ↔ d.val = c.val + 1 :=
  ⟨Coordinate.val_of_ofNat?, fun h => by rw [Coordinate.next?, ← h, Coordinate.ofNat?_val]⟩

theorem nextStop?_eq_some_iff {c d : Coordinate} :
    c.nextStop? = some d ↔ c.val + Coordinate.tabWidth ≤ Coordinate.max ∧
      d.val = c.val + Coordinate.tabWidth - (c.val - 1) % Coordinate.tabWidth := by
  unfold Coordinate.nextStop?
  split
  · rename_i hroom
    exact ⟨fun h => ⟨hroom, Coordinate.val_of_ofNat? h⟩,
      fun ⟨_, h⟩ => by rw [← h, Coordinate.ofNat?_val]⟩
  · rename_i hroom
    exact ⟨fun h => by contradiction, fun ⟨h, _⟩ => absurd h hroom⟩

/-- A stop is behind the column that asks for it, even where that is a stop itself. -/
theorem lt_stop (c : Coordinate) :
    c.val < c.val + Coordinate.tabWidth - (c.val - 1) % Coordinate.tabWidth := by
  have hw : (c.val - 1) % Coordinate.tabWidth < Coordinate.tabWidth := Nat.mod_lt _ (by decide)
  omega

theorem exists_next {c : Coordinate} (h : c.val + 1 ≤ Coordinate.max) :
    ∃ d : Coordinate, d.val = c.val + 1 :=
  ⟨⟨c.val + 1, by omega, h⟩, rfl⟩

theorem exists_stop {c : Coordinate} (h : c.val + Coordinate.tabWidth ≤ Coordinate.max) :
    ∃ d : Coordinate, d.val = c.val + Coordinate.tabWidth - (c.val - 1) % Coordinate.tabWidth := by
  have hstop := lt_stop c
  unfold Coordinate.max at h
  exact ⟨⟨_, by omega, by omega⟩, rfl⟩

/-! ## Characters -/

/-- The three kinds of steps. -/
inductive Step (p : Position) : Char → Position → Prop where
  /-- A line feed keeps the column. -/
  | feed {line : Coordinate} (hline : line.val = p.line.val + 1) : Step p '\n' { p with line }
  /-- A tab leads to the next stop, if there is room for a whole one. -/
  | tab {column : Coordinate} (hroom : p.column.val + Coordinate.tabWidth ≤ Coordinate.max)
      (hcolumn : column.val =
        p.column.val + Coordinate.tabWidth - (p.column.val - 1) % Coordinate.tabWidth) :
      Step p '\t' { p with column }
  /-- Any other character takes one column. -/
  | plain {c : Char} {column : Coordinate} (hfeed : c ≠ '\n') (htab : c ≠ '\t')
      (hcolumn : column.val = p.column.val + 1) : Step p c { p with column }

theorem step_of_advance {c : Char} (h : p.advance c = some q) : p.Step c q := by
  unfold advance at h
  split at h
  · rename_i hfeed
    subst hfeed
    obtain ⟨line, hnext, rfl⟩ := Option.map_eq_some_iff.1 h
    exact .feed (next?_eq_some_iff.1 hnext)
  · rename_i hfeed
    split at h
    · rename_i htab
      subst htab
      obtain ⟨column, hstop, rfl⟩ := Option.map_eq_some_iff.1 h
      obtain ⟨hroom, hcolumn⟩ := nextStop?_eq_some_iff.1 hstop
      exact .tab hroom hcolumn
    · rename_i htab
      obtain ⟨column, hnext, rfl⟩ := Option.map_eq_some_iff.1 h
      exact .plain hfeed htab (next?_eq_some_iff.1 hnext)

theorem Step.advance {c : Char} (h : p.Step c q) : p.advance c = some q := by
  unfold Position.advance
  cases h with
  | feed hline => rw [if_pos rfl, nextLine, next?_eq_some_iff.2 hline, Option.map_some]
  | tab hroom hcolumn =>
    rw [if_neg (by decide), if_pos rfl, nextStop, nextStop?_eq_some_iff.2 ⟨hroom, hcolumn⟩,
      Option.map_some]
  | plain hfeed htab hcolumn =>
    rw [if_neg hfeed, if_neg htab, nextColumn, next?_eq_some_iff.2 hcolumn, Option.map_some]

/-! ## Texts -/

theorem advanceText_cons (p : Position) (c : Char) (text : List Char) :
    p.advanceText (c :: text) = (p.advance c).bind (·.advanceText text) := by
  simp [advanceText]

theorem advanceText_singleton (p : Position) (c : Char) : p.advanceText [c] = p.advance c := by
  rw [advanceText_cons]
  cases p.advance c <;> rfl

theorem exists_of_advanceText_append {text more : List Char}
    (h : p.advanceText (text ++ more) = some q) :
    ∃ middle, p.advanceText text = some middle ∧ middle.advanceText more = some q := by
  rw [advanceText_append] at h
  exact Option.bind_eq_some_iff.1 h

/-- How many characters of a text take one column wherever they stand: those that are neither line
feeds nor tabs. -/
def plainCount (text : List Char) : Nat :=
  text.countP fun c => c ≠ '\n' ∧ c ≠ '\t'

theorem plainCount_append (text more : List Char) :
    plainCount (text ++ more) = plainCount text + plainCount more :=
  List.countP_append

theorem plainCount_singleton {c : Char} (hfeed : c ≠ '\n') (htab : c ≠ '\t') :
    plainCount [c] = 1 := by
  simp [plainCount, hfeed, htab]

theorem count_add_plainCount_singleton (c : Char) :
    [c].count '\n' + [c].count '\t' + plainCount [c] = 1 := by
  by_cases hfeed : c = '\n'
  · subst hfeed
    rfl
  · by_cases htab : c = '\t'
    · subst htab
      rfl
    · rw [plainCount_singleton hfeed htab, List.count_singleton, List.count_singleton,
        if_neg (by simpa using hfeed), if_neg (by simpa using htab)]

/-- A character is a line feed, a tab, or one of the others. -/
theorem count_add_plainCount (text : List Char) :
    text.count '\n' + text.count '\t' + plainCount text = text.length := by
  induction text with
  | nil => rfl
  | cons c text ih =>
    have hone := count_add_plainCount_singleton c
    rw [← List.singleton_append, List.count_append, List.count_append, plainCount_append,
      List.length_append, List.length_singleton]
    omega

/-- How far a text leads: down by its line feeds, and to the right by one column for each of its
other characters, up to a whole tab where that is a tab. -/
structure Spans (p : Position) (text : List Char) (q : Position) : Prop where
  /-- The source is the same. -/
  name : q.name = p.name
  /-- A line for each line feed. -/
  line : q.line.val = p.line.val + text.count '\n'
  /-- A column at least for each of the others. -/
  column_ge : p.column.val + text.count '\t' + plainCount text ≤ q.column.val
  /-- A whole tab at most for each tab. -/
  column_le : q.column.val ≤
    p.column.val + Coordinate.tabWidth * text.count '\t' + plainCount text

theorem spans_nil (p : Position) : p.Spans [] p :=
  ⟨rfl, rfl, Nat.le_refl _, Nat.le_refl _⟩

theorem Spans.append {text more : List Char} (h : p.Spans text q) (h' : q.Spans more r) :
    p.Spans (text ++ more) r := by
  obtain ⟨hname, hline, hge, hle⟩ := h
  obtain ⟨hname', hline', hge', hle'⟩ := h'
  refine ⟨hname'.trans hname, ?_, ?_, ?_⟩
  · rw [List.count_append]
    omega
  · rw [List.count_append, plainCount_append]
    omega
  · rw [List.count_append, plainCount_append, Nat.mul_add]
    omega

/-- Each character takes a line or a column, so a text that is not empty leads forward. -/
theorem Spans.lt {text : List Char} (h : p.Spans text q) (hne : text ≠ []) : p < q := by
  have hlength := List.length_pos_iff.2 hne
  have hcount := count_add_plainCount text
  have hline := h.line
  have hcolumn := h.column_ge
  rw [lt_iff]
  omega

theorem Step.spans {c : Char} (h : p.Step c q) : p.Spans [c] q := by
  cases h with
  | feed hline => exact ⟨rfl, hline, Nat.le_refl _, Nat.le_refl _⟩
  | tab _ hcolumn =>
    refine ⟨rfl, rfl, ?_, ?_⟩
    · rw [hcolumn]
      exact lt_stop p.column
    · rw [hcolumn]
      exact Nat.sub_le _ _
  | @plain c column hfeed htab hcolumn =>
    have hplain := plainCount_singleton hfeed htab
    have hone := count_add_plainCount_singleton c
    have hfeeds : [c].count '\n' = 0 := by omega
    have htabs : [c].count '\t' = 0 := by omega
    refine ⟨rfl, by rw [hfeeds]; rfl, ?_, ?_⟩
    · rw [htabs, hplain]
      exact Nat.le_of_eq hcolumn.symm
    · rw [htabs, hplain]
      exact Nat.le_of_eq hcolumn

theorem spans_of_advanceText {text : List Char} (h : p.advanceText text = some q) :
    p.Spans text q := by
  induction text generalizing p with
  | nil =>
    cases h
    exact spans_nil _
  | cons c text ih =>
    rw [advanceText_cons] at h
    obtain ⟨mid, hmid, hq⟩ := Option.bind_eq_some_iff.1 h
    exact (step_of_advance hmid).spans.append (ih hq)

theorem name_of_advance {c : Char} (h : p.advance c = some q) : q.name = p.name :=
  (step_of_advance h).spans.name

theorem lt_of_advance {c : Char} (h : p.advance c = some q) : p < q :=
  (step_of_advance h).spans.lt (List.cons_ne_nil _ _)

/-! ## Room -/

/-- There is a line left for each line feed of a text, a whole tab for each tab, and a column for
each of the other characters. -/
structure HasRoom (p : Position) (text : List Char) : Prop where
  /-- The lines that are left. -/
  line : p.line.val + text.count '\n' ≤ Coordinate.max
  /-- The columns that are left. -/
  column : p.column.val + Coordinate.tabWidth * text.count '\t' + plainCount text ≤ Coordinate.max

theorem HasRoom.left {text more : List Char} (h : p.HasRoom (text ++ more)) : p.HasRoom text := by
  obtain ⟨hline, hcolumn⟩ := h
  rw [List.count_append] at hline
  rw [List.count_append, plainCount_append, Nat.mul_add] at hcolumn
  exact ⟨by omega, by omega⟩

/-- No text takes more room than was counted for it. -/
theorem HasRoom.behind {text more : List Char} (h : p.HasRoom (text ++ more))
    (hspans : p.Spans text q) : q.HasRoom more := by
  obtain ⟨hline, hcolumn⟩ := h
  rw [List.count_append] at hline
  rw [List.count_append, plainCount_append, Nat.mul_add] at hcolumn
  have hqLine := hspans.line
  have hqColumn := hspans.column_le
  exact ⟨by omega, by omega⟩

theorem HasRoom.advance {c : Char} (h : p.HasRoom [c]) : ∃ q, p.advance c = some q := by
  obtain ⟨hline, hcolumn⟩ := h
  by_cases hfeed : c = '\n'
  · subst hfeed
    obtain ⟨line, hval⟩ := exists_next (c := p.line) hline
    exact ⟨_, (Step.feed hval).advance⟩
  · by_cases htab : c = '\t'
    · subst htab
      obtain ⟨column, hval⟩ := exists_stop (c := p.column) hcolumn
      exact ⟨_, (Step.tab hcolumn hval).advance⟩
    · have hplain := plainCount_singleton hfeed htab
      obtain ⟨column, hval⟩ := exists_next (c := p.column) (by omega)
      exact ⟨_, (Step.plain hfeed htab hval).advance⟩

theorem HasRoom.advanceText {text : List Char} (h : p.HasRoom text) :
    ∃ q, p.advanceText text = some q := by
  induction text generalizing p with
  | nil => exact ⟨p, rfl⟩
  | cons c text ih =>
    have hsplit : p.HasRoom ([c] ++ text) := h
    obtain ⟨mid, hmid⟩ := hsplit.left.advance
    obtain ⟨q, hq⟩ := ih (hsplit.behind (step_of_advance hmid).spans)
    exact ⟨q, by rw [advanceText_cons, hmid, Option.bind_some, hq]⟩

theorem exists_advanceText {text : List Char}
    (hline : p.line.val + text.length ≤ Coordinate.max)
    (hcolumn : p.column.val + Coordinate.tabWidth * text.length ≤ Coordinate.max) :
    ∃ q, p.advanceText text = some q ∧ q.line.val ≤ p.line.val + text.length ∧
      q.column.val ≤ p.column.val + Coordinate.tabWidth * text.length := by
  have hcount := count_add_plainCount text
  have htabs : Coordinate.tabWidth * text.count '\t' + plainCount text ≤
      Coordinate.tabWidth * text.length := by
    unfold Coordinate.tabWidth
    omega
  have hroom : p.HasRoom text := ⟨by omega, by omega⟩
  obtain ⟨q, hq⟩ := hroom.advanceText
  have hspans := spans_of_advanceText hq
  have hqLine := hspans.line
  have hqColumn := hspans.column_le
  exact ⟨q, hq, by omega, by omega⟩

/-- A text without line feeds and tabs takes one column for each of its characters. -/
theorem exists_advanceText_of_plain {text : List Char} (hplain : ∀ c ∈ text, c ≠ '\n' ∧ c ≠ '\t')
    (hcolumn : p.column.val + text.length ≤ Coordinate.max) :
    ∃ q, p.advanceText text = some q ∧ q.line = p.line ∧
      q.column.val = p.column.val + text.length := by
  have hfeeds : text.count '\n' = 0 := List.count_eq_zero.2 fun hmem => (hplain _ hmem).1 rfl
  have htabs : text.count '\t' = 0 := List.count_eq_zero.2 fun hmem => (hplain _ hmem).2 rfl
  have hcount := count_add_plainCount text
  have hlast : p.line.val ≤ Coordinate.max := p.line.le_max
  have hroom : p.HasRoom text := ⟨by omega, by rw [htabs]; omega⟩
  obtain ⟨q, hq⟩ := hroom.advanceText
  obtain ⟨-, hqLine, hge, hle⟩ := spans_of_advanceText hq
  rw [htabs] at hle
  exact ⟨q, hq, Coordinate.ext_val (by omega), by omega⟩

end Position

/-- Items of which each takes up the room of a character. -/
class LawfulSpaced (τ : Type) [Spaced τ] : Prop where
  /-- An item leads where its character leads. -/
  after_eq_advance (item : τ) : ∃ c, ∀ p : Position, Spaced.after p item = p.advance c

instance : LawfulSpaced Char :=
  ⟨fun c => ⟨c, fun _ => rfl⟩⟩

/-- A number takes up the room of any plain character. -/
instance : LawfulSpaced Int :=
  ⟨fun _ => ⟨'0', fun _ => rfl⟩⟩

/-! ## Sequences of items -/

namespace Position

variable {τ : Type} [Spaced τ] {p q : Position}

@[simp]
theorem afterAll_nil (p : Position) : p.afterAll ([] : List τ) = some p := rfl

theorem afterAll_cons (p : Position) (item : τ) (items : List τ) :
    p.afterAll (item :: items) = (Spaced.after p item).bind (·.afterAll items) := by
  simp [afterAll]

theorem afterAll_append (p : Position) (items more : List τ) :
    p.afterAll (items ++ more) = (p.afterAll items).bind (·.afterAll more) := by
  simp [afterAll]

theorem afterAll_singleton (p : Position) (item : τ) : p.afterAll [item] = Spaced.after p item := by
  rw [afterAll_cons]
  cases Spaced.after p item <;> rfl

variable [LawfulSpaced τ]

theorem name_of_afterAll {items : List τ} (h : p.afterAll items = some q) : q.name = p.name := by
  induction items generalizing p with
  | nil => cases h; rfl
  | cons item items ih =>
    rw [afterAll_cons] at h
    obtain ⟨mid, hmid, hq⟩ := Option.bind_eq_some_iff.1 h
    obtain ⟨c, hc⟩ := LawfulSpaced.after_eq_advance item
    rw [hc] at hmid
    exact (ih hq).trans (name_of_advance hmid)

theorem le_of_afterAll {items : List τ} (h : p.afterAll items = some q) : p ≤ q := by
  induction items generalizing p with
  | nil => cases h; exact le_refl _
  | cons item items ih =>
    rw [afterAll_cons] at h
    obtain ⟨mid, hmid, hq⟩ := Option.bind_eq_some_iff.1 h
    obtain ⟨c, hc⟩ := LawfulSpaced.after_eq_advance item
    rw [hc] at hmid
    exact le_trans (le_of_lt (lt_of_advance hmid)) (ih hq)

end Position

end Parsing
