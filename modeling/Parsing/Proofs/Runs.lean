import Parsing.Proofs.Lexemes
import Parsing.Proofs.RepetitionFamily

/-!
# Longest runs of characters

A repetition of a parser that reads one character of a set takes the longest run of such characters
at the beginning of the input, which may be empty. What it reports is what the parser says of the
first character behind the run. Blanks are skipped in this way, and a word of letters and digits is
read in this way, of which at least one has to be there.
-/

namespace Parsing

variable {σ υ α β : Type} [Input σ Char]

/-- From `s` to `t` over the longest run of accepted characters that the input begins with. -/
structure State.Passes (s : State σ υ) (accepts : Char → Bool) (t : State σ υ) : Prop where
  /-- The input goes on behind the run. -/
  items : Input.items t.input = (Input.items s.input).dropWhile accepts
  /-- The position has moved over the run. -/
  position : s.position.advanceText ((Input.items s.input).takeWhile accepts) = some t.position
  /-- The user value is as it was. -/
  user : t.user = s.user

/-- A run does not go on behind its end. -/
theorem State.Passes.ends {s t : State σ υ} {accepts : Char → Bool} (h : s.Passes accepts t) :
    ∀ c ∈ (Input.items t.input).head?, accepts c = false := by
  rw [h.items]
  exact head?_dropWhile_eq_false accepts (Input.items s.input)

namespace Parser

theorem Takes.passes {p : Parser σ υ α} {context : Context} {s t : State σ υ}
    {accepts : Char → Bool}
    {output : α} {messages : List Message}
    (h : p.Takes context s ((Input.items s.input).takeWhile accepts) output t messages) :
    s.Passes accepts t :=
  ⟨h.reads.items_eq_dropWhile, h.reads.position, h.user⟩

variable {p q : Parser σ υ Char} {accepts accepts' : Char → Bool}
  {complaint complaint' : List Char → List Message} {state : State σ υ} {turns : σ → Nat}

theorem ReadsOne.many (hp : p.ReadsOne accepts complaint) (context : Context)
    (hturns : ∀ input : σ, (Input.items input).length < turns input) (hfits : state.Fits) :
    let run := (Input.items state.input).takeWhile accepts
    ∃ last, (many turns p).Takes context state
      run run last (complaint (Input.items last.input)) := by
  intro run
  -- The loop collects its outputs backwards, and they are turned around behind it.
  obtain ⟨last, hlast⟩ := hp.repetition context (fun acc c => c :: acc) [] hturns hfits
  have hreverse : (run.foldl (fun acc c => c :: acc) []).reverse = run := by
    rw [List.foldl_flip_cons_eq_append, List.map_id', List.append_nil, List.reverse_reverse]
  have hall := hlast.map List.reverse
  rw [hreverse, ← many_eq_map] at hall
  exact ⟨last, hall⟩

/-- A first character that is read apart from the run behind it. -/
theorem ReadsOne.bind_many (hp : p.ReadsOne accepts complaint) (hq : q.ReadsOne accepts' complaint')
    (f : Char → List Char → β) (context : Context)
    (hturns : ∀ input : σ, (Input.items input).length < turns input) (hfits : state.Fits) {c : Char}
    {rest : List Char} (hitems : Input.items state.input = c :: rest) (hc : accepts c = true) :
    let run := rest.takeWhile accepts'
    ∃ last, (Parser.bind p fun first => Parser.map (f first) (Parser.many turns q)).Takes
      context state (c :: run) (f c run) last (complaint' (Input.items last.input)) := by
  intro run
  obtain ⟨next, hnext⟩ := hp.takes context hfits hitems hc
  obtain ⟨last, hlast⟩ := hq.many context hturns (hfits.of_reads hnext.reads)
  have hrest : Input.items next.input = rest := hnext.reads.rest_eq hitems
  rw [hrest] at hlast
  exact ⟨last, hnext.bind_of_silent (hlast.map (f c))⟩

end Parser

namespace Chars

variable {ι : Type} {ρ : ι → Type} {rules : Rules σ Char υ ρ} {budget : Budget σ}

theorem parser_many (p : Grammar σ Char υ ρ α) :
    (Grammar.many p).parser rules budget = Parser.many budget.turns (p.parser rules budget) := by
  obtain ⟨turns, depth⟩ := budget
  cases depth <;> rfl

theorem parser_alphanums :
    (alphanums : Grammar σ Char υ ρ String).parser rules budget =
      Parser.bind (alphanum.parser rules budget) fun first =>
        Parser.map (fun rest => String.ofList (first :: rest))
          (Parser.many budget.turns (alphanum.parser rules budget)) := by
  have hmany1 : (alphanums : Grammar σ Char υ ρ String).parser rules budget =
      Parser.map String.ofList (Parser.many1 budget.turns (alphanum.parser rules budget)) := by
    obtain ⟨turns, depth⟩ := budget
    cases depth <;> rfl
  have hmap : ∀ first : Char, Parser.map String.ofList
      (Parser.map (first :: ·) (Parser.many budget.turns (alphanum.parser rules budget))) =
        Parser.map (fun rest => String.ofList (first :: rest))
          (Parser.many budget.turns (alphanum.parser rules budget)) :=
    fun first => Parser.map_map _ _ _
  rw [hmany1, Parser.many1_eq_bind_many, Parser.map_bind, funext hmap]

variable [LawfulInput σ] {state : State σ υ} (rules : Rules σ Char υ ρ)

section Alphanums

variable (context : Context)

/-- One letter or digit at least makes up a word, together with those behind it. -/
theorem alphanums_takes (hturns : ∀ input : σ, (Input.items input).length < budget.turns input)
    (hfits : state.Fits) {c : Char} {rest : List Char}
    (hitems : Input.items state.input = c :: rest) (hc : isAlphanum c = true) :
    let word := (Input.items state.input).takeWhile isAlphanum
    ∃ next, ((alphanums : Grammar σ Char υ ρ String).parser rules budget).Takes context state word
      (String.ofList word) next [⟨.expected, "letter or digit"⟩] := by
  intro word
  have hread := readsOne_alphanum rules budget
  have hword : word = c :: rest.takeWhile isAlphanum := by
    simp only [word, hitems, List.takeWhile_cons, hc, if_true]
  rw [hword, parser_alphanums]
  exact hread.bind_many hread (fun first rest => String.ofList (first :: rest)) context hturns hfits
    hitems hc

theorem alphanums_rejects (h : ∀ c ∈ (Input.items state.input).head?, isAlphanum c = false) :
    (alphanums : Grammar σ Char υ ρ String).parser rules budget context state =
      .returned (.reject ⟨state.position, [⟨.expected, "letter or digit"⟩]⟩) := by
  rw [parser_alphanums]
  exact Parser.bind_of_failure ((readsOne_alphanum rules budget).rejects context h)

end Alphanums

/-- Wherever there is room for what is left to read, a repetition of one accepted character takes
the longest run of them: that is its output, it ends behind it, it has read input exactly if the run
is not empty, and all it reports is the character that ends the run, or the end of the input. Blanks
are skipped by such a run, with what could still have come as the report, and no blank is left in
front. A word is such a run of letters and digits; if it is empty, there is a failure that asks for
a letter or digit. -/
theorem runs_are_longest (hturns : ∀ input : σ, (Input.items input).length < budget.turns input)
    (context : Context) (accepts : Char → Bool)
    (hline : state.position.line.val + state.left ≤ 4294967295)
    (hcolumn : state.position.column.val + 8 * state.left ≤ 4294967295) :
    let items := Input.items state.input
    let run := items.takeWhile accepts
    let blanks := items.takeWhile Unicode.isWhiteSpace
    let word := items.takeWhile isAlphanum
    (∃ tag next, state.Passes accepts next ∧ (tag = .consumed ↔ run ≠ []) ∧
      (Grammar.many (satisfy accepts)).parser rules budget context state =
        .returned ⟨tag, .success run next ⟨next.position,
          [⟨.systemUnexpected, ((items.dropWhile accepts).head?.map Quoted.char).getD ""⟩]⟩⟩) ∧
    (∃ tag next, state.Passes Unicode.isWhiteSpace next ∧ (tag = .consumed ↔ blanks ≠ []) ∧
      (∀ c ∈ (Input.items next.input).head?, Unicode.isWhiteSpace c = false) ∧
      spaces.parser rules budget context state =
        .returned ⟨tag, .success () next ⟨next.position,
          [⟨.expected, if blanks.isEmpty then "white space" else "space"⟩]⟩⟩) ∧
    (word ≠ [] → ∃ next, state.Passes isAlphanum next ∧
      alphanums.parser rules budget context state =
        .returned ⟨.consumed, .success (String.ofList word) next ⟨next.position,
          [⟨.expected, "letter or digit"⟩]⟩⟩) ∧
    (word = [] → alphanums.parser rules budget context state =
      .returned (.reject ⟨state.position, [⟨.expected, "letter or digit"⟩]⟩)) := by
  intro items run blanks word
  have hfits : state.Fits := ⟨hline, hcolumn⟩
  refine ⟨?_, ?_, fun hword => ?_, fun hword => ?_⟩
  · obtain ⟨next, hnext⟩ := (readsOne_satisfy rules budget accepts).many context hturns hfits
    have hpasses := hnext.passes
    have hrun := hnext.run
    rw [← parser_many, hpasses.items] at hrun
    exact ⟨_, next, hpasses, Tag.ofRead_eq_consumed_iff, hrun⟩
  · obtain ⟨next, hnext⟩ := spaces_takes rules hturns context hfits
    exact ⟨_, next, hnext.passes, Tag.ofRead_eq_consumed_iff, hnext.passes.ends, hnext.run⟩
  · obtain ⟨c, rest, hitems, hc⟩ :=
      (begins_or_not isAlphanum items).resolve_right
        fun hnone => hword (takeWhile_eq_nil_iff.2 hnone)
    obtain ⟨next, hnext⟩ := alphanums_takes rules context hturns hfits hitems hc
    have hrun := hnext.run
    rw [Tag.ofRead_eq_consumed_iff.2 hword] at hrun
    exact ⟨next, hnext.passes, hrun⟩
  · exact alphanums_rejects rules context (takeWhile_eq_nil_iff.1 hword)

/-- Two digits before a letter, which is what ends their run. -/
theorem two_digits_before_letter :
    let rules : Rules (List Char) Char Unit (fun _ : Empty => Unit) := Empty.rec
    let budget : Budget (List Char) := ⟨fun input => input.length + 1, 0⟩
    let start : State (List Char) Unit := ⟨['4', '2', 'x'], (), .initial "f"⟩
    let behind : Position := ⟨"f", .first, ⟨3, by decide, by decide⟩⟩
    let digits : Parser (List Char) Unit (List Char) :=
      (Grammar.many (satisfy CharClass.digit.contains)).parser rules budget
    ((∀ input : List Char, (Input.items input).length < budget.turns input) ∧
      start.position.line.val + start.left ≤ 4294967295 ∧
      start.position.column.val + 8 * start.left ≤ 4294967295) ∧
      digits (.start none) start = .returned ⟨.consumed, .success ['4', '2'] ⟨['x'], (), behind⟩
        ⟨behind, [⟨.systemUnexpected, "'x'"⟩]⟩⟩ := by
  intro rules budget start behind digits
  have hturns : ∀ input : List Char, (Input.items input).length < budget.turns input := fun input =>
    Nat.lt_succ_self _
  have hline : start.position.line.val + start.left ≤ 4294967295 := by decide
  have hcolumn : start.position.column.val + 8 * start.left ≤ 4294967295 := by decide
  obtain ⟨⟨tag, next, hpasses, htag, hrun⟩, -⟩ :=
    runs_are_longest rules hturns (.start none) CharClass.digit.contains hline hcolumn
  have htag : tag = .consumed := htag.2 (by decide)
  have hmoved : start.position.advanceText ['4', '2'] = some behind := by decide
  have hbehind : behind = next.position := Option.some.inj (hmoved.symm.trans hpasses.position)
  have hnext : next = ⟨['x'], (), behind⟩ := by
    have hitems : next.input = ['x'] := hpasses.items
    rw [hbehind, ← hitems]
  refine ⟨⟨hturns, hline, hcolumn⟩, hrun.trans ?_⟩
  rw [htag, hnext]
  rfl

end Chars

end Parsing
