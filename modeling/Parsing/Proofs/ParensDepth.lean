import Mathlib.Data.List.TakeWhile
import Parsing.Proofs.Exclusive
import Parsing.Proofs.Lexemes

/-!
# The depth of parentheses

The grammar of parentheses enters itself for each one that is opened and comes back for each one
that is closed. So a text is settled by how many it opens at its beginning and how many it closes
right behind them. Once one has been read there is no way back: what fails further inside fails the
whole, where it is. A limit on the nest levels is met on the way in, before anything is closed.
-/

namespace Parsing

/-- So many levels can be entered one below the other. -/
structure Context.Admits (context : Context) (levels : Nat) : Prop where
  /-- There are numbers for them. -/
  level : context.level + levels ≤ maxLevel
  /-- The limit, if there is one, allows for them. -/
  limit : ∀ most ∈ context.limit, context.level + levels ≤ most

namespace Context.Admits

variable {context : Context} {levels : Nat}

theorem nest (h : context.Admits (levels + 1)) (position : Position) :
    context.nest position = .returned (.ok { context with level := context.level + 1 }) := by
  have hroom := h.level
  refine nest_of_ne_limit (fun hlimit => ?_) (by omega) position
  have hmost := h.limit context.level hlimit.symm
  omega

theorem deeper (h : context.Admits (levels + 1)) :
    Admits { context with level := context.level + 1 } levels where
  level := by
    have hroom := h.level
    simp only
    omega
  limit most hmost := by
    have hroom := h.limit most hmost
    simp only
    omega

end Context.Admits

namespace Parser

variable {σ υ α : Type} {p : Parser σ υ α} {context deeper : Context} {state : State σ υ}

theorem nested_of_entered (h : context.nest state.position = .returned (.ok deeper)) :
    nested p context state = p deeper state := by
  unfold nested
  rw [h]
  rfl

theorem nested_of_refused (h : some context.level = context.limit) :
    nested p context state = .returned (.reject (Context.refusal state.position)) := by
  unfold nested
  rw [Context.nest_of_eq_limit h]
  rfl

end Parser

namespace Chars

/-! ## Parentheses in a row -/

/-- Some opening parentheses and some closing ones. -/
def brackets (opened closed : Nat) : List Char :=
  List.replicate opened '(' ++ List.replicate closed ')'

theorem length_brackets (opened closed : Nat) :
    (brackets opened closed).length = opened + closed := by
  simp [brackets]

theorem brackets_succ (opened closed : Nat) :
    brackets (opened + 1) closed = '(' :: brackets opened closed := by
  simp [brackets, List.replicate_succ]

/-- The last parenthesis closes the first one. -/
theorem brackets_succ_succ (opened closed : Nat) :
    brackets (opened + 1) (closed + 1) = '(' :: (brackets opened closed ++ [')']) := by
  rw [brackets_succ]
  simp [brackets, List.replicate_succ']

theorem plain_of_mem_brackets {opened closed : Nat} :
    ∀ c ∈ brackets opened closed, c ≠ '\n' ∧ c ≠ '\t' := by
  intro c hc
  rcases List.mem_append.1 hc with hc | hc
  · obtain rfl := List.eq_of_mem_replicate hc
    decide
  · obtain rfl := List.eq_of_mem_replicate hc
    decide

theorem ofRead_brackets_eq_consumed_iff {n : Nat} :
    Tag.ofRead (brackets n n) = .consumed ↔ 0 < n := by
  rw [Tag.ofRead_eq_consumed_iff, ← List.length_pos_iff, length_brackets]
  omega

/-- How many parentheses the text opens at its beginning. -/
def openings (text : List Char) : Nat :=
  (text.takeWhile (· == '(')).length

/-- How many it closes right behind them. -/
def closings (text : List Char) : Nat :=
  ((text.dropWhile (· == '(')).takeWhile (· == ')')).length

/-- What follows those. -/
def behindBrackets (text : List Char) : List Char :=
  (text.dropWhile (· == '(')).dropWhile (· == ')')

theorem replicate_append_dropWhile (c : Char) (text : List Char) :
    List.replicate (text.takeWhile (· == c)).length c ++ text.dropWhile (· == c) = text := by
  have hrun : text.takeWhile (· == c) = List.replicate (text.takeWhile (· == c)).length c := by
    rw [List.eq_replicate_iff]
    exact ⟨rfl, fun b hb => eq_of_beq (List.mem_takeWhile_imp (p := (· == c)) hb)⟩
  rw [← hrun, List.takeWhile_append_dropWhile]

theorem replicate_append_behindBrackets (text : List Char) :
    List.replicate (closings text) ')' ++ behindBrackets text = text.dropWhile (· == '(') :=
  replicate_append_dropWhile ')' _

theorem brackets_append_behindBrackets (text : List Char) :
    brackets (openings text) (closings text) ++ behindBrackets text = text := by
  rw [brackets, List.append_assoc, replicate_append_behindBrackets]
  exact replicate_append_dropWhile '(' text

theorem head_of_openings_eq_zero {text : List Char} (h : openings text = 0) :
    ∀ c ∈ text.head?, (c == '(') = false :=
  takeWhile_eq_nil_iff.1 (List.length_eq_zero_iff.1 h)

theorem head_of_closings_eq_zero {text : List Char} (h : closings text = 0) :
    ∀ c ∈ (behindBrackets text).head?, (c == '(') = false := by
  have hsame := replicate_append_behindBrackets text
  rw [h, List.replicate_zero, List.nil_append] at hsame
  rw [hsame]
  exact head?_dropWhile_eq_false _ text

/-- The text begins with a part of its parentheses, as long as the openings are all in it or nothing
is closed. -/
theorem exists_brackets_append {text : List Char} {opened closed : Nat}
    (hopened : opened ≤ openings text)
    (hclosed : closed ≤ closings text) (h : opened = openings text ∨ closed = 0) :
    ∃ rest, text = brackets opened closed ++ rest := by
  have htext := brackets_append_behindBrackets text
  rcases h with rfl | rfl
  · refine ⟨List.replicate (closings text - closed) ')' ++ behindBrackets text, ?_⟩
    rw [brackets, List.append_assoc, ← List.append_assoc (List.replicate closed ')'),
      List.replicate_append_replicate, Nat.add_sub_cancel' hclosed, ← List.append_assoc]
    exact htext.symm
  · refine ⟨List.replicate (openings text - opened) '(' ++ text.dropWhile (· == '('), ?_⟩
    rw [brackets, List.replicate_zero, List.append_nil, ← List.append_assoc,
      List.replicate_append_replicate, Nat.add_sub_cancel' hopened]
    exact (replicate_append_dropWhile '(' text).symm

theorem brackets_append_drop {text : List Char} (h : openings text ≤ closings text) :
    text = brackets (openings text) (openings text) ++ text.drop (2 * openings text) := by
  obtain ⟨rest, hrest⟩ := exists_brackets_append (Nat.le_refl _) h (Or.inl rfl)
  have hlength : (brackets (openings text) (openings text)).length = 2 * openings text := by
    rw [length_brackets]
    omega
  have hdrop : (brackets (openings text) (openings text) ++ rest).drop (2 * openings text) = rest :=
    List.drop_left' hlength
  rw [← hrest] at hdrop
  rwa [hdrop]

/-! ## One pair of parentheses -/

variable {σ υ : Type} [Input σ Char]

/-- The parser of what stands in parentheses. -/
def inside : Budget σ → Parser σ υ Nat
  | ⟨_, 0⟩ => Parser.exhausted
  | ⟨turns, depth + 1⟩ => parens.parser parensRules ⟨turns, depth⟩

/-- The parser of a pair of parentheses and what stands in it. -/
def pair (budget : Budget σ) : Parser σ υ Nat :=
  Parser.discardRight
    (Parser.discardLeft ((satisfy (· == '(')).parser parensRules budget)
      (Parser.nested (inside budget)))
    ((satisfy (· == ')')).parser parensRules budget)

variable {budget : Budget σ} {context : Context} {s t u v : State σ υ} {n closed : Nat}
  {read rest : List Char} {messages : List Message} {error : ParseError} {position : Position}

theorem parser_parens :
    (parens : Grammar σ Char υ (fun _ : Unit => Nat) Nat).parser parensRules budget =
      Parser.choice (Parser.map (· + 1) (pair budget)) (Parser.pure 0) := by
  obtain ⟨turns, depth⟩ := budget
  cases depth <;> rfl

theorem exists_inside (h : n + 1 ≤ budget.depth) :
    ∃ inner : Budget σ, n ≤ inner.depth ∧
      (inside budget : Parser σ υ Nat) = parens.parser parensRules inner := by
  obtain ⟨turns, depth⟩ := budget
  cases depth with
  | zero => exact absurd h (Nat.not_succ_le_zero n)
  | succ depth => exact ⟨⟨turns, depth⟩, Nat.le_of_succ_le_succ h, rfl⟩

/-- What has been read in parentheses is not given back. -/
theorem parens_of_failure
    (h : pair budget context s = .returned ⟨.consumed, .failure error⟩) :
    parens.parser parensRules budget context s = .returned ⟨.consumed, .failure error⟩ := by
  rw [parser_parens]
  exact Parser.choice_of_consumed (Parser.map_of_failure h) rfl

/-- So a failure further inside goes all the way through. -/
theorem parens_of_inside_failure
    (hopen : ((satisfy (· == '(')).parser parensRules budget).Takes context s ['('] '(' t [])
    (h : Parser.nested (inside budget) context t = .returned ⟨.consumed, .failure error⟩) :
    parens.parser parensRules budget context s = .returned ⟨.consumed, .failure error⟩ :=
  parens_of_failure (Parser.discardRight_of_failure (hopen.bind_of_consumed h rfl))

theorem pair_taken
    (hopen : ((satisfy (· == '(')).parser parensRules budget).Takes context s ['('] '(' t [])
    (hinside : (Parser.nested (inside budget)).Takes context t read n u messages)
    (hclose : ((satisfy (· == ')')).parser parensRules budget).Takes context u [')'] ')' v []) :
    (parens.parser parensRules budget).Takes context s ('(' :: (read ++ [')'])) (n + 1) v [] := by
  have hpair := ((hopen.discardLeft hinside).discardRight hclose).map (· + 1)
  rw [parser_parens]
  exact hpair.choice (List.cons_ne_nil _ _) _

variable [LawfulInput σ]

theorem paren_takes (c : Char) (hitems : Input.items s.input = c :: rest)
    (hposition : s.position.advanceText [c] = some position) :
    ∃ next, next.position = position ∧
      ((satisfy (· == c)).parser parensRules budget).Takes context s [c] c next [] :=
  satisfy_takes parensRules budget context hitems (beq_self_eq_true c) hposition

theorem nothing_taken (h : ∀ c ∈ (Input.items s.input).head?, (c == '(') = false) :
    ∃ messages, (parens.parser parensRules budget).Takes context s
      ([] : List Char) 0 s messages := by
  have hreject := (readsOne_satisfy parensRules budget (· == '(')).rejects context h
  have hpair := Parser.discardRight_of_failure (q := (satisfy (· == ')')).parser parensRules budget)
    (Parser.bind_of_failure (f := fun _ => Parser.nested (inside budget)) hreject)
  rw [parser_parens]
  exact ⟨_, Parser.takes_nothing_of_reject (Parser.map_of_failure hpair) 0⟩

/-- Behind an opening parenthesis the grammar is entered again, one level deeper. -/
theorem enters (hdepth : n + 1 ≤ budget.depth) (hadmits : context.Admits (n + 1))
    (hitems : Input.items s.input = '(' :: rest)
    (hposition : s.position.advanceText ('(' :: read) = some position) :
    ∃ (t : State σ υ) (inner : Budget σ), Input.items t.input = rest ∧
      t.position.advanceText read = some position ∧ n ≤ inner.depth ∧
      ((satisfy (· == '(')).parser parensRules budget).Takes context s ['('] '(' t [] ∧
      Parser.nested (inside budget) context t =
        parens.parser parensRules inner { context with level := context.level + 1 } t := by
  obtain ⟨first, hfirst, hbehind⟩ := Position.exists_of_advanceText_append
    (show s.position.advanceText (['('] ++ read) = some position from hposition)
  obtain ⟨t, rfl, hopen⟩ := paren_takes '(' hitems hfirst
  obtain ⟨inner, hinner, hinside⟩ := exists_inside hdepth
  refine ⟨t, inner, hopen.reads.rest_eq hitems, hbehind, hinner, hopen, ?_⟩
  rw [Parser.nested_of_entered (hadmits.nest t.position), hinside]

/-! ## Texts of parentheses -/

/-- As many as are opened are closed. -/
theorem balanced_taken (hdepth : n ≤ budget.depth) (hadmits : context.Admits n)
    (hitems : Input.items s.input = brackets n n ++ rest)
    (hnone : n = 0 → ∀ c ∈ rest.head?, (c == '(') = false)
    (hposition : s.position.advanceText (brackets n n) = some position) :
    ∃ next messages, (parens.parser parensRules budget).Takes context s (brackets n n) n next
      messages := by
  induction n generalizing budget context s rest position with
  | zero =>
    have hitems : Input.items s.input = rest := hitems
    obtain ⟨messages, hnothing⟩ := nothing_taken (hitems ▸ hnone rfl)
    exact ⟨s, messages, hnothing⟩
  | succ n ih =>
    rw [brackets_succ_succ] at hitems hposition ⊢
    rw [List.cons_append, List.append_assoc] at hitems
    obtain ⟨t, inner, hrest, hmoved, hinner, hopen, hnested⟩ :=
      enters hdepth hadmits hitems hposition
    obtain ⟨last, hlast, hclosed⟩ := Position.exists_of_advanceText_append hmoved
    obtain ⟨u, messages, htaken⟩ := ih hinner hadmits.deeper hrest (fun _ => by simp) hlast
    have hinside : (Parser.nested (inside budget)).Takes context t (brackets n n) n u messages :=
      ⟨htaken.reads, htaken.user, hnested.trans htaken.run⟩
    obtain rfl : last = u.position := Option.some.inj (hlast.symm.trans htaken.reads.position)
    obtain ⟨next, -, hclose⟩ := paren_takes ')' (htaken.reads.rest_eq hrest) hclosed
    exact ⟨next, [], pair_taken hopen hinside hclose⟩

/-- Where one is missing, the text ends too early or goes on with something else. -/
theorem unclosed_fails (hdepth : n ≤ budget.depth) (hadmits : context.Admits n) (hless : closed < n)
    (hitems : Input.items s.input = brackets n closed ++ rest)
    (hnone : closed = 0 → ∀ c ∈ rest.head?, (c == '(') = false)
    (hends : ∀ c ∈ rest.head?, (c == ')') = false)
    (hposition : s.position.advanceText (brackets n closed) = some position) :
    ∃ messages, parens.parser parensRules budget context s =
      .returned ⟨.consumed, .failure ⟨position, messages⟩⟩ := by
  induction n generalizing budget context s with
  | zero => omega
  | succ n ih =>
    rw [brackets_succ] at hitems hposition
    obtain ⟨t, inner, hrest, hmoved, hinner, hopen, hnested⟩ :=
      enters hdepth hadmits hitems hposition
    by_cases hinside : closed < n
    · obtain ⟨messages, hrun⟩ := ih hinner hadmits.deeper hinside hrest hmoved
      exact ⟨messages, parens_of_inside_failure hopen (hnested.trans hrun)⟩
    -- What is missing is the parenthesis that closes the first one.
    · obtain rfl : closed = n := by omega
      obtain ⟨u, messages, htaken⟩ := balanced_taken hinner hadmits.deeper hrest hnone hmoved
      have hinside : (Parser.nested (inside budget)).Takes context t
          (brackets closed closed) closed u messages :=
        ⟨htaken.reads, htaken.user, hnested.trans htaken.run⟩
      obtain rfl : position = u.position :=
        Option.some.inj (hmoved.symm.trans htaken.reads.position)
      have hreject := (readsOne_satisfy parensRules budget (· == ')')).rejects context
        ((htaken.reads.rest_eq hrest).symm ▸ hends)
      exact ⟨_, parens_of_failure ((hopen.discardLeft hinside).discardRight_reject hreject)⟩

/-- Behind the last parenthesis that the limit has room for, one more is read, and what it holds is
refused. -/
theorem too_deep_fails (hdepth : n ≤ budget.depth) (hadmits : context.Admits n)
    (hlimit : context.limit = some (context.level + n))
    (hitems : Input.items s.input = brackets (n + 1) 0 ++ rest)
    (hposition : s.position.advanceText (brackets (n + 1) 0) = some position) :
    parens.parser parensRules budget context s =
      .returned ⟨.consumed, .failure (Context.refusal position)⟩ := by
  induction n generalizing budget context s with
  | zero =>
    obtain ⟨t, rfl, hopen⟩ := paren_takes '(' hitems hposition
    have hrefused : Parser.nested (inside budget) context t =
        .returned (.reject (Context.refusal t.position)) :=
      Parser.nested_of_refused hlimit.symm
    exact parens_of_failure (Parser.discardRight_of_failure (hopen.bind_reject hrefused))
  | succ n ih =>
    rw [brackets_succ] at hitems hposition
    obtain ⟨t, inner, hrest, hmoved, hinner, hopen, hnested⟩ :=
      enters hdepth hadmits hitems hposition
    have hleft : context.limit = some (context.level + 1 + n) := by
      rw [hlimit, Nat.add_assoc, Nat.add_comm 1]
    have hrun := ih hinner hadmits.deeper hleft hrest hmoved
    exact parens_of_inside_failure hopen (hnested.trans hrun)

/-! ## Every text -/

theorem admits_start {limit : Option Nat} {levels : Nat} (h : 1 + levels ≤ 4294967295)
    (hlimit : ∀ most ∈ limit, levels ≤ most) : (Context.start limit).Admits levels where
  level := by
    simp only [Context.start, Context.maxLevel]
    omega
  limit most hmost := by
    have hroom := hlimit most hmost
    simp only [Context.start]
    omega

/-- There is a position behind parentheses that have room in the first line. -/
theorem exists_behind_brackets {p : Position} {opened closed : Nat} (hline : p.line.val = 1)
    (hcolumn : p.column.val = 1) (h : 1 + opened + closed ≤ 4294967295) :
    ∃ q, p.advanceText (brackets opened closed) = some q ∧ q.line.val = 1 ∧
      q.column.val = 1 + opened + closed := by
  have hroom : p.column.val + (brackets opened closed).length ≤ Coordinate.max := by
    rw [hcolumn, length_brackets, ← Nat.add_assoc]
    exact h
  obtain ⟨q, hq, hqLine, hqColumn⟩ :=
    Position.exists_advanceText_of_plain plain_of_mem_brackets hroom
  rw [hcolumn, length_brackets, ← Nat.add_assoc] at hqColumn
  exact ⟨q, hq, by rw [hqLine, hline], hqColumn⟩

/-- The grammar of parentheses reads what it describes, at every depth and within every limit. For a
text that begins with so many opening parentheses, and so many closing ones right behind them, and
has room for those in its first line: within the limit, if at least as many are closed as are
opened, the output is their number, and that many of both kinds are taken, with input read if there
are any; if fewer are closed, the failure has read input and lies behind them. If more are opened
than the limit has room for, the failure has read input, lies behind the first one too many, and
reports the limit and nothing else, whatever follows. -/
theorem parens_read_to_their_depth (budget : Budget σ) (limit : Option Nat) (start : State σ υ)
    (hline : start.position.line.val = 1) (hcolumn : start.position.column.val = 1) :
    let text := Input.items start.input
    let outcome := parens.parser parensRules budget (.start limit) start
    (openings text ≤ budget.depth → (∀ most ∈ limit, openings text ≤ most) →
      (openings text ≤ closings text → 1 + 2 * openings text ≤ 4294967295 →
        ∃ tag next hint, outcome = .returned ⟨tag, .success (openings text) next hint⟩ ∧
          (tag = .consumed ↔ 0 < openings text) ∧ next.user = start.user ∧
            Input.items next.input = text.drop (2 * openings text) ∧
              next.position.line.val = 1 ∧ next.position.column.val = 1 + 2 * openings text) ∧
      (closings text < openings text → 1 + openings text + closings text ≤ 4294967295 →
        ∃ error, outcome = .returned ⟨.consumed, .failure error⟩ ∧
          error.position.line.val = 1 ∧
            error.position.column.val = 1 + openings text + closings text)) ∧
    ∀ most ∈ limit, most < openings text → most ≤ budget.depth → most + 2 ≤ 4294967295 →
      ∃ error, outcome = .returned ⟨.consumed, .failure error⟩ ∧
        error.position.line.val = 1 ∧ error.position.column.val = most + 2 ∧
          error.messages = [⟨.plain, "exceeded nest level"⟩] := by
  intro text outcome
  refine ⟨fun hdepth hwithin => ⟨fun hclosed hfits => ?_, fun hclosed hfits => ?_⟩,
    fun most hmost hmore hdepth hfits => ?_⟩
  · have hroom : 1 + openings text + openings text ≤ 4294967295 := by omega
    obtain ⟨position, hposition, hat, hcolumns⟩ := exists_behind_brackets hline hcolumn hroom
    have hnone : openings text = 0 →
        ∀ c ∈ (text.drop (2 * openings text)).head?, (c == '(') = false := by
      intro hzero
      rw [hzero, Nat.mul_zero, List.drop_zero]
      exact head_of_openings_eq_zero hzero
    have hadmits : (Context.start limit).Admits (openings text) := admits_start (by omega) hwithin
    have hitems := brackets_append_drop hclosed
    obtain ⟨next, messages, htaken⟩ := balanced_taken hdepth hadmits hitems hnone hposition
    obtain rfl : position = next.position :=
      Option.some.inj (hposition.symm.trans htaken.reads.position)
    exact ⟨_, next, _, htaken.run, ofRead_brackets_eq_consumed_iff, htaken.user,
      htaken.reads.rest_eq hitems, hat, by omega⟩
  · obtain ⟨position, hposition, hat, hcolumns⟩ := exists_behind_brackets hline hcolumn hfits
    have hadmits : (Context.start limit).Admits (openings text) := admits_start (by omega) hwithin
    have hends : ∀ c ∈ (behindBrackets text).head?, (c == ')') = false :=
      head?_dropWhile_eq_false _ _
    obtain ⟨messages, hrun⟩ := unclosed_fails hdepth hadmits hclosed
      (brackets_append_behindBrackets text).symm head_of_closings_eq_zero hends hposition
    exact ⟨_, hrun, hat, hcolumns⟩
  · have hroom : 1 + (most + 1) + 0 ≤ 4294967295 := by omega
    obtain ⟨position, hposition, hat, hcolumns⟩ := exists_behind_brackets hline hcolumn hroom
    have hadmits : (Context.start limit).Admits most := by
      refine admits_start (by omega) fun bound hbound => ?_
      obtain rfl := Option.mem_unique hmost hbound
      exact Nat.le_refl most
    have hlimit : (Context.start limit).limit = some ((Context.start limit).level + most) := by
      rw [Context.start, Nat.zero_add]
      exact hmost
    obtain ⟨rest, hitems⟩ := exists_brackets_append hmore (Nat.zero_le _) (Or.inr rfl)
    have hrun := too_deep_fails hdepth hadmits hlimit hitems hposition
    have hcolumns : position.column.val = most + 2 := by omega
    exact ⟨_, hrun, hat, hcolumns, rfl⟩

/-- Two pairs with a parenthesis too many behind them, two of which only one is closed, and three
where the limit has room for one. -/
theorem two_pairs_and_unclosed_and_too_deep :
    let budget : Budget (List Char) := ⟨List.length, 3⟩
    let start (text : List Char) : State (List Char) Unit := ⟨text, (), .initial "f"⟩
    let run (limit : Option Nat) (text : List Char) : Outcome (Result (List Char) Unit Nat) :=
      parens.parser parensRules budget (.start limit) (start text)
    (∃ tag next hint, run (some 2) ['(', '(', ')', ')', ')'] =
        .returned ⟨tag, .success 2 next hint⟩ ∧
      tag = .consumed ∧ next.input = [')']) ∧
    (∃ error, run none ['(', '(', ')', 'x'] = .returned ⟨.consumed, .failure error⟩ ∧
      error.position.column.val = 4) ∧
    ∃ error, run (some 1) ['(', '(', '('] = .returned ⟨.consumed, .failure error⟩ ∧
      error.position.column.val = 3 ∧ error.messages = [⟨.plain, "exceeded nest level"⟩] := by
  intro budget start run
  obtain ⟨hclosed, -⟩ :=
    parens_read_to_their_depth budget (some 2) (start ['(', '(', ')', ')', ')']) rfl rfl
  obtain ⟨hunclosed, -⟩ :=
    parens_read_to_their_depth budget none (start ['(', '(', ')', 'x']) rfl rfl
  obtain ⟨-, hdeep⟩ := parens_read_to_their_depth budget (some 1) (start ['(', '(', '(']) rfl rfl
  obtain ⟨tag, next, hint, hrun, htag, -, hrest, -⟩ :=
    (hclosed (by decide) (by decide)).1 (by decide) (by decide)
  obtain ⟨error, herror, -, hcolumn⟩ :=
    (hunclosed (by decide) (by decide)).2 (by decide) (by decide)
  obtain ⟨refusal, hrefusal, -, hplace, hmessages⟩ :=
    hdeep 1 rfl (by decide) (by decide) (by decide)
  exact ⟨⟨tag, next, hint, hrun, htag.2 (by decide), hrest⟩, ⟨error, herror, hcolumn⟩,
    refusal, hrefusal, hplace, hmessages⟩

end Chars

end Parsing
