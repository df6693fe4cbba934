import Parsing.Proofs.Advance

/-!
# The extent of a text

A line feed moves a position by a line and no column, so the lines and the columns of a text can be
told apart: its line feeds say how many lines it takes, and without them it leads to the same
column. Of its columns, what is before the last tab only decides at which stop that tab ends, since
the characters behind it take one column each. The room that a text asks for is a whole tab for each
tab, however near the stop is.
-/

namespace Parsing

namespace Position

variable {p q : Position}

/-! ## Lines apart from columns -/

/-- A character that is no line feed moves alike in every line. -/
theorem advance_in_line {c : Char} (hfeed : c ≠ '\n') (h : p.advance c = some q)
    (line : Coordinate) : advance { p with line } c = some { q with line } := by
  cases step_of_advance h with
  | feed _ => exact absurd rfl hfeed
  | tab hroom hcolumn => exact (Step.tab (p := { p with line }) hroom hcolumn).advance
  | plain _ htab hcolumn => exact (Step.plain (p := { p with line }) hfeed htab hcolumn).advance

/-- Without its line feeds, a text leads to the same column of the line in which it starts,
whichever line that is. -/
theorem advanceText_in_line {text : List Char} (h : p.advanceText text = some q)
    (line : Coordinate) :
    advanceText { p with line } (text.filter (· ≠ '\n')) = some { q with line } := by
  induction text generalizing p with
  | nil =>
    cases h
    rfl
  | cons c text ih =>
    rw [advanceText_cons] at h
    obtain ⟨mid, hmid, hq⟩ := Option.bind_eq_some_iff.1 h
    have hrest := ih hq
    by_cases hfeed : c = '\n'
    · subst hfeed
      rw [List.filter_cons_of_neg (by decide)]
      -- the place behind a line feed differs from the one before it in nothing but the line
      cases step_of_advance hmid with
      | feed _ => exact hrest
      | plain hne => exact absurd rfl hne
    · rw [List.filter_cons_of_pos (by simpa using hfeed), advanceText_cons,
        advance_in_line hfeed hmid line, Option.bind_some, hrest]

/-! ## Tab stops -/

theorem column_of_advance_tab (h : p.advance '\t' = some q) :
    ∃ stops, q.column.val = 1 + Coordinate.tabWidth * stops := by
  have hone := p.column.one_le
  cases step_of_advance h with
  | tab _ hcolumn =>
    refine ⟨(p.column.val - 1) / Coordinate.tabWidth + 1, ?_⟩
    have hdiv := Nat.div_add_mod (p.column.val - 1) Coordinate.tabWidth
    rw [hcolumn, Nat.mul_add]
    omega
  | plain _ htab => exact absurd rfl htab

/-- Where there is no tab, each character but the line feeds takes one column. -/
theorem Spans.column_of_no_tab {text : List Char} (h : p.Spans text q) (htab : '\t' ∉ text) :
    q.column.val = p.column.val + text.countP (· ≠ '\n') := by
  have htabs : text.count '\t' = 0 := List.count_eq_zero.2 htab
  have hplain : text.countP (· ≠ '\n') = plainCount text := by
    refine List.countP_congr fun c hc => ?_
    have hne : c ≠ '\t' := fun heq => htab (heq ▸ hc)
    simp [hne]
  have hge := h.column_ge
  have hle := h.column_le
  rw [htabs] at hge hle
  omega

/-- Behind the last tab of a text, the columns are counted from a stop. -/
theorem column_behind_tab {before after : List Char}
    (h : p.advanceText (before ++ '\t' :: after) = some q) (hlast : '\t' ∉ after) :
    ∃ stops, q.column.val = 1 + Coordinate.tabWidth * stops + after.countP (· ≠ '\n') := by
  obtain ⟨mid, -, hmid⟩ := exists_of_advanceText_append h
  rw [advanceText_cons] at hmid
  obtain ⟨stop, hstop, hq⟩ := Option.bind_eq_some_iff.1 hmid
  obtain ⟨stops, hcolumn⟩ := column_of_advance_tab hstop
  have hafter := (spans_of_advanceText hq).column_of_no_tab hlast
  exact ⟨stops, by rw [hafter, hcolumn]⟩

/-! ## The extent -/

/-- Where a line is left for each line feed of a text, a whole tab for each tab, and a column for
each of the other characters, there is a position behind the text. Wherever there is one, it lies a
line further down for each line feed, and as far to the right as without the line feeds: by a column
at least for each other character, by what the room was asked for at most, and in step with the tab
stops from the last tab on. Two texts in a row lead where the second one leads from behind the first
one, and any text but the empty one leads forward. -/
theorem text_takes_its_extent (p : Position) (text : List Char) :
    (p.line.val + text.count '\n' ≤ 4294967295 →
      p.column.val + 8 * text.count '\t' + plainCount text ≤ 4294967295 →
      ∃ q, p.advanceText text = some q) ∧
    (∀ q, p.advanceText text = some q →
      q.name = p.name ∧ q.line.val = p.line.val + text.count '\n' ∧
      p.advanceText (text.filter (· ≠ '\n')) = some { q with line := p.line } ∧
      p.column.val + text.count '\t' + plainCount text ≤ q.column.val ∧
      q.column.val ≤ p.column.val + 8 * text.count '\t' + plainCount text ∧
      (∀ before after, text = before ++ '\t' :: after → '\t' ∉ after →
        ∃ stops, q.column.val = 1 + 8 * stops + after.countP (· ≠ '\n')) ∧
      (text ≠ [] → compare p q = .lt)) ∧
    ∀ more, p.advanceText (text ++ more) = (p.advanceText text).bind (·.advanceText more) := by
  refine ⟨fun hline hcolumn => ?_, fun q hq => ?_, advanceText_append p text⟩
  · have hroom : p.HasRoom text := ⟨hline, hcolumn⟩
    exact hroom.advanceText
  · have hspans := spans_of_advanceText hq
    refine ⟨hspans.name, hspans.line, advanceText_in_line hq p.line, hspans.column_ge,
      hspans.column_le, ?_, fun hne => compare_eq_lt.2 (hspans.lt hne)⟩
    rintro before after rfl hlast
    exact column_behind_tab hq hlast

/-- A tab and a line feed, where the line is the last but one and the columns are just those that
the text asks for. The tab ends at a stop of which the text behind it takes one column more. -/
theorem tab_and_feed_reach_last_line :
    let start : Position :=
      ⟨"f", ⟨4294967294, by decide, by decide⟩, ⟨4294967285, by decide, by decide⟩⟩
    let behind : Position :=
      ⟨"f", ⟨4294967295, by decide, by decide⟩, ⟨4294967290, by decide, by decide⟩⟩
    let text := ['a', '\t', '\n', 'b']
    start.line.val + text.count '\n' ≤ 4294967295 ∧
    start.column.val + 8 * text.count '\t' + plainCount text ≤ 4294967295 ∧
    (∃ q, start.advanceText text = some q) ∧ start.advanceText text = some behind ∧
    text = ['a'] ++ '\t' :: ['\n', 'b'] ∧ '\t' ∉ ['\n', 'b'] ∧
    (∃ stops, behind.column.val = 1 + 8 * stops + ['\n', 'b'].countP (· ≠ '\n')) ∧
    text ≠ [] ∧ compare start behind = .lt := by
  intro start behind text
  have hline : start.line.val + text.count '\n' ≤ 4294967295 := by decide
  have hcolumn : start.column.val + 8 * text.count '\t' + plainCount text ≤ 4294967295 := by decide
  have hbehind : start.advanceText text = some behind := by decide
  have hsplit : text = ['a'] ++ '\t' :: ['\n', 'b'] := rfl
  have hlast : '\t' ∉ ['\n', 'b'] := by decide
  have hne : text ≠ [] := List.cons_ne_nil _ _
  obtain ⟨hroom, hreached, -⟩ := text_takes_its_extent start text
  obtain ⟨-, -, -, -, -, hstops, hforward⟩ := hreached behind hbehind
  exact ⟨hline, hcolumn, hroom hline hcolumn, hbehind, hsplit, hlast,
    hstops ['a'] ['\n', 'b'] hsplit hlast, hne, hforward hne⟩

end Position

end Parsing
