import Parsing.Proofs.Runs

/-!
# Names

A name is a letter and the longest run of letters and digits that it begins. An identifier reads one
name and the blanks on both sides of it. Where there is no name behind the blanks it fails there,
and the blanks stay read; the labels of the failure tell whether there were any.
-/

namespace Parsing.Chars

variable {σ υ ι : Type} {ρ : ι → Type}

/-- Reads a letter and the letters and digits after it. -/
def name : Grammar σ Char υ ρ String :=
  (Grammar.attempt
    (.bind CharClass.letter.grammar fun first =>
      .map (fun rest => String.ofList (first :: rest)) (.many alphanum))).label "identifier"

/-- A letter belongs to the run of letters and digits that it begins. -/
theorem takeWhile_letter {c : Char} (rest : List Char) (hc : CharClass.letter.contains c = true) :
    (c :: rest).takeWhile isAlphanum = c :: rest.takeWhile isAlphanum := by
  rw [List.takeWhile_cons, isAlphanum, hc]
  rfl

variable [Input σ Char] {rules : Rules σ Char υ ρ} {budget : Budget σ}

theorem parser_name :
    (name : Grammar σ Char υ ρ String).parser rules budget =
      Parser.labels ["identifier"]
        (Parser.attempt
          (Parser.bind (CharClass.letter.grammar.parser rules budget) fun first =>
            Parser.map (fun rest => String.ofList (first :: rest))
              (Parser.many budget.turns (alphanum.parser rules budget)))) := by
  obtain ⟨turns, depth⟩ := budget
  cases depth <;> rfl

theorem parser_identifier :
    (identifier : Grammar σ Char υ ρ String).parser rules budget =
      Parser.discardRight
        (Parser.discardLeft (spaces.parser rules budget) (name.parser rules budget))
        (spaces.parser rules budget) := by
  obtain ⟨turns, depth⟩ := budget
  cases depth <;> rfl

variable [LawfulInput σ] {state : State σ υ} (rules : Rules σ Char υ ρ)

theorem readsOne_class (budget : Budget σ) (k : CharClass) :
    ((k.grammar : Grammar σ Char υ ρ Char).parser rules budget).ReadsOne k.contains
      fun _ => [⟨.expected, k.label⟩] := by
  unfold CharClass.grammar
  rw [parser_label]
  exact (readsOne_satisfy rules budget _).labels _

variable (context : Context)

theorem name_takes (hturns : ∀ input : σ, (Input.items input).length < budget.turns input)
    (hfits : state.Fits) {c : Char} {rest : List Char}
    (hitems : Input.items state.input = c :: rest) (hc : CharClass.letter.contains c = true) :
    let run := (Input.items state.input).takeWhile isAlphanum
    ∃ next, ((name : Grammar σ Char υ ρ String).parser rules budget).Takes context state run
      (String.ofList run) next [⟨.expected, "letter or digit"⟩] := by
  intro run
  have hrun : run = c :: rest.takeWhile isAlphanum := by
    simp only [run, hitems, takeWhile_letter rest hc]
  obtain ⟨next, hnext⟩ := (readsOne_class rules budget CharClass.letter).bind_many
    (readsOne_alphanum rules budget) (fun first rest => String.ofList (first :: rest))
    context hturns hfits hitems hc
  rw [hrun, parser_name]
  exact ⟨next, hnext.attempt.labels ["identifier"]⟩

theorem name_rejects
    (h : ∀ c ∈ (Input.items state.input).head?, CharClass.letter.contains c = false) :
    (name : Grammar σ Char υ ρ String).parser rules budget context state =
      .returned (.reject ⟨state.position, [⟨.expected, "identifier"⟩]⟩) := by
  have hletter := (readsOne_class rules budget CharClass.letter).rejects context h
  rw [parser_name, Parser.labels, Parser.attempt_of_failure (Parser.bind_of_failure hletter)]
  rfl

/-! ## Names between blanks -/

section Identifier

variable (hturns : ∀ input : σ, (Input.items input).length < budget.turns input)
include hturns

theorem identifier_takes (hfits : state.Fits) {c : Char} {rest : List Char}
    (htext : (Input.items state.input).dropWhile Unicode.isWhiteSpace = c :: rest)
    (hc : CharClass.letter.contains c = true) :
    let blanks := (Input.items state.input).takeWhile Unicode.isWhiteSpace
    let text := (Input.items state.input).dropWhile Unicode.isWhiteSpace
    let after := text.dropWhile isAlphanum
    ∃ next messages, Input.items next.input = after.dropWhile Unicode.isWhiteSpace ∧
      ((identifier : Grammar σ Char υ ρ String).parser rules budget).Takes context state
        (blanks ++ text.takeWhile isAlphanum ++ after.takeWhile Unicode.isWhiteSpace)
        (String.ofList (text.takeWhile isAlphanum)) next messages := by
  intro blanks text after
  obtain ⟨start, hblanks⟩ := spaces_takes rules hturns context hfits
  have hstart : Input.items start.input = text := hblanks.reads.items_eq_dropWhile
  have hfitsStart : start.Fits := hfits.of_reads hblanks.reads
  obtain ⟨last, hname⟩ := name_takes rules context hturns hfitsStart (hstart.trans htext) hc
  have hlast : Input.items last.input = after := by
    rw [hname.reads.items_eq_dropWhile, hstart]
  obtain ⟨next, hblanks'⟩ :=
    spaces_takes rules hturns context (hfitsStart.of_reads hname.reads)
  have hnext := hblanks'.reads.items_eq_dropWhile
  have hall := (hblanks.discardLeft hname).discardRight hblanks'
  rw [hlast] at hnext
  rw [← parser_identifier, hstart, hlast] at hall
  exact ⟨next, _, hnext, hall⟩

theorem identifier_fails (hfits : state.Fits)
    (h : ∀ c ∈ ((Input.items state.input).dropWhile Unicode.isWhiteSpace).head?,
      CharClass.letter.contains c = false) :
    let blanks := (Input.items state.input).takeWhile Unicode.isWhiteSpace
    ∃ position, state.position.advanceText blanks = some position ∧
      (identifier : Grammar σ Char υ ρ String).parser rules budget context state =
        .returned ⟨.ofRead blanks, .failure ⟨position,
          [⟨.expected, if blanks.isEmpty then "white space" else "space"⟩,
            ⟨.expected, "identifier"⟩]⟩⟩ := by
  intro blanks
  obtain ⟨start, hblanks⟩ := spaces_takes rules hturns context hfits
  rw [← hblanks.reads.items_eq_dropWhile] at h
  refine ⟨start.position, hblanks.reads.position, ?_⟩
  rw [parser_identifier]
  refine Parser.discardRight_of_failure ?_
  rw [Parser.discardLeft_eq_bind]
  exact hblanks.bind_reject (name_rejects rules context h)

/-- An identifier has a result wherever there is room for what is left to read. It succeeds exactly
where a letter stands behind the blanks. Then its output is the longest run of letters and digits
there, it goes on behind that run and the blanks after it, with the position moved over all of that
and the user value as it was, and it has read input. Otherwise it fails right behind the blanks, has
read input exactly if there are any, and expects blanks and a name: white space where there are
none, one more blank where there are. -/
theorem identifier_reads_one_name
    (hline : state.position.line.val + state.left ≤ 4294967295)
    (hcolumn : state.position.column.val + 8 * state.left ≤ 4294967295) :
    let blanks := (Input.items state.input).takeWhile Unicode.isWhiteSpace
    let text := (Input.items state.input).dropWhile Unicode.isWhiteSpace
    let run := text.takeWhile isAlphanum
    let after := text.dropWhile isAlphanum
    ∃ result, (identifier : Grammar σ Char υ ρ String).parser rules budget context state =
        .returned result ∧
      (result.reply.isSuccess = true ↔ ∃ c ∈ text.head?, CharClass.letter.contains c = true) ∧
      (∀ output next hint, result.reply = .success output next hint →
        output = String.ofList run ∧ Input.items next.input = after.dropWhile Unicode.isWhiteSpace ∧
          state.position.advanceText (blanks ++ run ++ after.takeWhile Unicode.isWhiteSpace) =
            some next.position ∧ next.user = state.user ∧ result.tag = .consumed) ∧
      ∀ error, result.reply = .failure error →
        (result.tag = .consumed ↔ blanks ≠ []) ∧
          state.position.advanceText blanks = some error.position ∧
          error.messages = [⟨.expected, if blanks.isEmpty then "white space" else "space"⟩,
            ⟨.expected, "identifier"⟩] := by
  intro blanks text run after
  have hfits : state.Fits := ⟨hline, hcolumn⟩
  rcases begins_or_not CharClass.letter.contains text with ⟨c, rest, htext, hc⟩ | hnone
  · obtain ⟨next, messages, hnext, htakes⟩ := identifier_takes rules context hturns hfits htext hc
    have hhead : ∃ c ∈ text.head?, CharClass.letter.contains c = true := by
      rw [htext]
      exact ⟨c, rfl, hc⟩
    refine ⟨_, htakes.run, iff_of_true rfl hhead, ?_, nofun⟩
    intro output next' hint hreply
    cases hreply
    have hrun : run ≠ [] := by
      simp only [run, htext, takeWhile_letter rest hc]
      exact List.cons_ne_nil _ _
    have hread : blanks ++ run ++ after.takeWhile Unicode.isWhiteSpace ≠ [] := by simp [hrun]
    exact ⟨rfl, hnext, htakes.reads.position, htakes.user, Tag.ofRead_eq_consumed_iff.2 hread⟩
  · obtain ⟨position, hposition, hrun⟩ := identifier_fails rules context hturns hfits hnone
    refine ⟨_, hrun, iff_of_false nofun ?_, nofun, ?_⟩
    · rintro ⟨c, hhead, hc⟩
      rw [hnone c hhead] at hc
      cases hc
    · rintro _ ⟨⟩
      exact ⟨Tag.ofRead_eq_consumed_iff, hposition, rfl⟩

end Identifier

/-- A digit behind two blanks, where a name is missing. -/
theorem digit_behind_blanks_is_no_name :
    let rules : Rules (List Char) Char Unit (fun _ : Empty => Unit) := Empty.rec
    let budget : Budget (List Char) := ⟨fun input => input.length + 1, 0⟩
    let start : State (List Char) Unit := ⟨[' ', ' ', '9', 'x'], (), .initial "f"⟩
    let behind : Position := ⟨"f", .first, ⟨3, by decide, by decide⟩⟩
    ((∀ input : List Char, (Input.items input).length < budget.turns input) ∧
      start.position.line.val + start.left ≤ 4294967295 ∧
      start.position.column.val + 8 * start.left ≤ 4294967295) ∧
      identifier.parser rules budget (.start none) start =
        .returned ⟨.consumed,
          .failure ⟨behind, [⟨.expected, "space"⟩, ⟨.expected, "identifier"⟩]⟩⟩ := by
  intro rules budget start behind
  have hturns : ∀ input : List Char, (Input.items input).length < budget.turns input := fun input =>
    Nat.lt_succ_self _
  have hline : start.position.line.val + start.left ≤ 4294967295 := by decide
  have hcolumn : start.position.column.val + 8 * start.left ≤ 4294967295 := by decide
  obtain ⟨⟨tag, reply⟩, hrun, hsuccess, -, hfailure⟩ :=
    identifier_reads_one_name rules (.start none) hturns hline hcolumn
  have hnone : ¬ ∃ c ∈ ['9', 'x'].head?, CharClass.letter.contains c = true := by
    rintro ⟨c, ⟨⟩, hc⟩
    exact absurd hc (by decide)
  cases reply with
  | success output next hint => exact absurd (hsuccess.1 rfl) hnone
  | failure error =>
    obtain ⟨position, messages⟩ := error
    obtain ⟨htag, hposition, hmessages⟩ := hfailure ⟨position, messages⟩ rfl
    have htag : tag = .consumed := htag.2 (by decide)
    have hmoved : start.position.advanceText [' ', ' '] = some behind := by decide
    have hbehind : behind = position := Option.some.inj (hmoved.symm.trans hposition)
    have hmessages : messages = [⟨.expected, "space"⟩, ⟨.expected, "identifier"⟩] := hmessages
    refine ⟨⟨hturns, hline, hcolumn⟩, ?_⟩
    rw [hrun, htag, ← hbehind, hmessages]

end Parsing.Chars
