import Parsing.Proofs.Exclusive
import Parsing.Proofs.Lexemes

/-!
# Words of a language

A keyword is found where the text behind the blanks begins with it and does not run on in a letter
or a digit. It takes the blanks before it and behind it along. Where it is not found nothing is
read, since all of it up to the end of the word is tried and given back.

Of two words that are made of letters and digits, one that begins the other runs on where the other
one is found. So at most one keyword of a set is found anywhere, and a choice of them is the same in
every order.
-/

namespace Parsing

namespace Parser

variable {σ υ α : Type} {p : Parser σ υ α} {context : Context} {state : State σ υ}

/-- The parser succeeds at the state. -/
def Accepts (p : Parser σ υ α) (context : Context) (state : State σ υ) : Prop :=
  ∃ result, p context state = .returned result ∧ result.reply.isSuccess = true

theorem Rejects.not_accepts (h : p.Rejects context state) : ¬ p.Accepts context state := by
  rintro ⟨result, hresult, hsuccess⟩
  obtain ⟨error, rfl⟩ := (rejects_iff hresult).1 h
  cases hsuccess

end Parser

namespace Chars

/-! ## Where a word stands -/

/-- The text begins with the word, and does not run on in a letter or a digit. -/
structure WordAt (word text after : List Char) : Prop where
  /-- The word is what the text begins with. -/
  text_eq : text = word ++ after
  /-- What comes next is no letter or digit, if anything does. -/
  ends : ∀ c ∈ after.head?, isAlphanum c = false

theorem wordAt_or_runs_on {word text : List Char} (h : word <+: text) :
    (∃ after, WordAt word text after) ∨
      ∃ c rest, text = word ++ c :: rest ∧ isAlphanum c = true := by
  obtain ⟨after, rfl⟩ := h
  rcases begins_or_not isAlphanum after with ⟨c, rest, rfl, hc⟩ | hends
  · exact Or.inr ⟨c, rest, rfl, hc⟩
  · exact Or.inl ⟨after, rfl, hends⟩

/-- A longer word made of letters and digits is where a shorter one runs on. -/
theorem WordAt.eq_of_prefix {word longer text after after' : List Char}
    (h : WordAt word text after) (h' : WordAt longer text after')
    (hlonger : longer.all isAlphanum = true) (hbegins : word <+: longer) : word = longer := by
  obtain ⟨more, rfl⟩ := hbegins
  cases more with
  | nil => exact (List.append_nil word).symm
  | cons c more =>
    have htext : word ++ after = (word ++ c :: more) ++ after' := h.text_eq.symm.trans h'.text_eq
    rw [List.append_assoc] at htext
    obtain rfl : after = c :: (more ++ after') := List.append_cancel_left htext
    have hends : isAlphanum c = false := h.ends c rfl
    have hc : isAlphanum c = true := List.all_eq_true.1 hlonger c (by simp)
    rw [hends] at hc
    cases hc

/-- No two words made of letters and digits stand at one place. -/
theorem WordAt.unique {word word' text after after' : List Char} (h : WordAt word text after)
    (h' : WordAt word' text after') (hword : word.all isAlphanum = true)
    (hword' : word'.all isAlphanum = true) : word = word' := by
  have hbegins : word <+: text := ⟨after, h.text_eq.symm⟩
  have hbegins' : word' <+: text := ⟨after', h'.text_eq.symm⟩
  rcases List.prefix_or_prefix_of_prefix hbegins hbegins' with hle | hle
  · exact h.eq_of_prefix h' hword' hle
  · exact (h'.eq_of_prefix h hword hle).symm

/-! ## One keyword -/

variable {σ υ ι : Type} {ρ : ι → Type} [Input σ Char] {rules : Rules σ Char υ ρ} {budget : Budget σ}
  {context : Context} {state : State σ υ}

theorem parser_keyword (word : String) :
    (keyword word : Grammar σ Char υ ρ String).parser rules budget =
      Parser.discardRight
        (Parser.attempt
          (Parser.discardRight
            (Parser.discardLeft (spaces.parser rules budget) ((string word).parser rules budget))
            (Parser.notFollowedBy Quoted.char (alphanum.parser rules budget))))
        (spaces.parser rules budget) := by
  obtain ⟨turns, depth⟩ := budget
  cases depth <;> rfl

theorem parser_choiceOf_keywords (words : List String) :
    (Grammar.choiceOf (words.map keyword)).parser rules budget =
      Parser.choiceOf (words.map fun word => (keyword word).parser rules budget) := by
  rw [parser_choiceOf, List.map_map]
  rfl

theorem keyword_of_failure {word : String} {tag : Tag} {error : ParseError}
    (h : Parser.discardRight
      (Parser.discardLeft (spaces.parser rules budget) ((string word).parser rules budget))
      (Parser.notFollowedBy Quoted.char (alphanum.parser rules budget)) context state =
        .returned ⟨tag, .failure error⟩) :
    (keyword word).parser rules budget context state = .returned (.reject error) := by
  rw [parser_keyword]
  exact Parser.discardRight_of_failure (Parser.attempt_of_failure h)

variable [LawfulInput σ] (rules : Rules σ Char υ ρ)
  (hturns : ∀ input : σ, (Input.items input).length < budget.turns input) (context : Context)

section Keyword

variable (hfits : state.Fits)
include hturns hfits

/-- Blanks and the text that begins behind them. -/
theorem spaces_string_takes {text : String} {after : List Char}
    (h : (Input.items state.input).dropWhile Unicode.isWhiteSpace = text.toList ++ after) :
    ∃ next messages, Input.items next.input = after ∧
      (Parser.discardLeft (spaces.parser rules budget) ((string text).parser rules budget)).Takes
        context state ((Input.items state.input).takeWhile Unicode.isWhiteSpace ++ text.toList)
        text next messages := by
  obtain ⟨start, hblanks⟩ := spaces_takes rules hturns context hfits
  have hitems : Input.items start.input = text.toList ++ after := by
    rw [hblanks.reads.items_eq_dropWhile, h]
  obtain ⟨next, htext⟩ := string_takes rules budget context (hfits.of_reads hblanks.reads) hitems
  exact ⟨next, _, htext.reads.rest_eq hitems, hblanks.discardLeft htext⟩

/-- Where the word stands behind the blanks, it is taken, and the blanks on both sides of it. -/
theorem keyword_takes {word : String} {after : List Char}
    (h : WordAt word.toList ((Input.items state.input).dropWhile Unicode.isWhiteSpace) after) :
    ∃ next messages, Input.items next.input = after.dropWhile Unicode.isWhiteSpace ∧
      ((keyword word).parser rules budget).Takes context state
        ((Input.items state.input).takeWhile Unicode.isWhiteSpace ++ word.toList ++
          after.takeWhile Unicode.isWhiteSpace) word next messages := by
  obtain ⟨last, _, hafter, hword⟩ := spaces_string_takes rules hturns context hfits h.text_eq
  -- The word does not run on, so what looks ahead for a letter or a digit takes nothing.
  have hends : ∀ c ∈ (Input.items last.input).head?, isAlphanum c = false := by
    rw [hafter]
    exact h.ends
  have hboundary := hword.discardRight
    ((readsOne_alphanum rules budget).notFollowedBy Quoted.char context hends)
  obtain ⟨next, hblanks⟩ := spaces_takes rules hturns context (hfits.of_reads hword.reads)
  have hnext := hblanks.reads.items_eq_dropWhile
  have hall := hboundary.attempt.discardRight hblanks
  rw [hafter] at hnext hall
  rw [List.append_nil, ← parser_keyword] at hall
  exact ⟨next, _, hnext, hall⟩

/-- Where it does not stand, nothing is read. The failure lies where the word would have begun, or
behind it if it runs on there. -/
theorem keyword_rejects {word : String}
    (h : ¬ ∃ after,
      WordAt word.toList ((Input.items state.input).dropWhile Unicode.isWhiteSpace) after) :
    let blanks := (Input.items state.input).takeWhile Unicode.isWhiteSpace
    let text := (Input.items state.input).dropWhile Unicode.isWhiteSpace
    ∃ error, (keyword word).parser rules budget context state = .returned (.reject error) ∧
      state.position.advanceText (if word.toList <+: text then blanks ++ word.toList else blanks) =
        some error.position := by
  intro blanks text
  by_cases hword : word.toList <+: text
  · rw [if_pos hword]
    obtain ⟨c, rest, htext, hc⟩ := (wordAt_or_runs_on hword).resolve_left h
    obtain ⟨last, _, hrest, htakes⟩ := spaces_string_takes rules hturns context hfits htext
    have hboundary := (readsOne_alphanum rules budget).notFollowedBy_rejects Quoted.char context
      (hfits.of_reads htakes.reads) hrest hc
    exact ⟨_, keyword_of_failure (htakes.discardRight_reject hboundary), htakes.reads.position⟩
  · -- The part of the word that is there may have been read; the attempt gives it back.
    rw [if_neg hword]
    obtain ⟨start, hblanks⟩ := spaces_takes rules hturns context hfits
    have hnot : ¬ word.toList <+: Input.items start.input := by
      rw [hblanks.reads.items_eq_dropWhile]
      exact hword
    obtain ⟨_, _, hstring⟩ := string_fails rules budget context hnot
    obtain ⟨_, _, hfailed⟩ := hblanks.discardLeft_failure hstring
    exact ⟨_, keyword_of_failure (Parser.discardRight_of_failure hfailed), hblanks.reads.position⟩

theorem keyword_accepts_iff (word : String) :
    ((keyword word).parser rules budget).Accepts context state ↔
      ∃ after,
        WordAt word.toList ((Input.items state.input).dropWhile Unicode.isWhiteSpace) after := by
  constructor
  · intro haccepts
    by_contra h
    obtain ⟨error, hrun, -⟩ := keyword_rejects rules hturns context hfits h
    exact Parser.Rejects.not_accepts ⟨error, hrun⟩ haccepts
  · rintro ⟨after, hafter⟩
    obtain ⟨next, _, -, htakes⟩ := keyword_takes rules hturns context hfits hafter
    exact ⟨_, htakes.run, rfl⟩

/-- Where a keyword does not succeed, it fails without reading input. -/
theorem keyword_rejects_of_not_accepts {word : String}
    (h : ¬ ((keyword word).parser rules budget).Accepts context state) :
    ∃ error, (keyword word).parser rules budget context state = .returned (.reject error) ∧
      error.position.name = state.position.name := by
  rw [keyword_accepts_iff rules hturns context hfits] at h
  obtain ⟨error, hrun, hposition⟩ := keyword_rejects rules hturns context hfits h
  exact ⟨error, hrun, Position.name_of_afterAll hposition⟩

/-- A keyword that is not empty reads input wherever it succeeds. -/
theorem keyword_consumes_of_accepts {word : String} (hword : word ≠ "")
    (h : ((keyword word).parser rules budget).Accepts context state) :
    ∃ result, (keyword word).parser rules budget context state = .returned result ∧
      result.tag = .consumed := by
  obtain ⟨after, hafter⟩ := (keyword_accepts_iff rules hturns context hfits word).1 h
  obtain ⟨next, _, -, htakes⟩ := keyword_takes rules hturns context hfits hafter
  refine ⟨_, htakes.run, Tag.ofRead_eq_consumed_iff.2 ?_⟩
  simp [hword]

end Keyword

include hturns in
/-- A keyword has a result wherever there is room for what is left to read. It succeeds exactly
where the word stands behind the blanks and does not run on in a letter or a digit. Then it takes
the blanks, the word and the blanks behind it, moves the position over all of it, leaves the user
value as it is, and is tagged by whether that is any text at all. Otherwise it fails without having
read input, behind the blanks, or behind the word if all there is against it is that the word runs
on. -/
theorem keyword_accepts_lexeme (word : String)
    (hline : state.position.line.val + state.left ≤ 4294967295)
    (hcolumn : state.position.column.val + 8 * state.left ≤ 4294967295) :
    let blanks := (Input.items state.input).takeWhile Unicode.isWhiteSpace
    let text := (Input.items state.input).dropWhile Unicode.isWhiteSpace
    ∃ result, (keyword word).parser rules budget context state = .returned result ∧
      (result.reply.isSuccess = true ↔
        ∃ after, text = word.toList ++ after ∧ ∀ c ∈ after.head?, isAlphanum c = false) ∧
      (∀ output next hint, result.reply = .success output next hint →
        ∃ after, text = word.toList ++ after ∧
          let removed := blanks ++ word.toList ++ after.takeWhile Unicode.isWhiteSpace
          output = word ∧ Input.items next.input = after.dropWhile Unicode.isWhiteSpace ∧
            state.position.advanceText removed = some next.position ∧ next.user = state.user ∧
            (result.tag = .consumed ↔ removed ≠ [])) ∧
      ∀ error, result.reply = .failure error → result.tag = .empty ∧
        state.position.advanceText
          (if word.toList <+: text then blanks ++ word.toList else blanks) =
            some error.position := by
  intro blanks text
  have hfits : state.Fits := ⟨hline, hcolumn⟩
  by_cases h : ∃ after, WordAt word.toList text after
  · obtain ⟨after, hafter⟩ := h
    obtain ⟨next, messages, hnext, htakes⟩ := keyword_takes rules hturns context hfits hafter
    refine ⟨_, htakes.run, iff_of_true rfl ⟨after, hafter.text_eq, hafter.ends⟩, ?_, nofun⟩
    intro output next' hint hreply
    cases hreply
    exact ⟨after, hafter.text_eq, rfl, hnext, htakes.reads.position, htakes.user,
      Tag.ofRead_eq_consumed_iff⟩
  · obtain ⟨error, hrun, hposition⟩ := keyword_rejects rules hturns context hfits h
    refine ⟨_, hrun, iff_of_false nofun ?_, nofun, ?_⟩
    · rintro ⟨after, htext, hends⟩
      exact h ⟨after, htext, hends⟩
    · intro error' hreply
      cases hreply
      exact ⟨rfl, hposition⟩

/-- A word between a blank and the end of a line, both of which go with it. -/
theorem let_before_end_of_line :
    let rules : Rules (List Char) Char Unit (fun _ : Empty => Unit) := Empty.rec
    let budget : Budget (List Char) := ⟨fun input => input.length + 1, 0⟩
    let start : State (List Char) Unit := ⟨[' ', 'l', 'e', 't', '\n', 'x'], (), .initial "f"⟩
    let behind : Position := ⟨"f", ⟨2, by decide, by decide⟩, ⟨5, by decide, by decide⟩⟩
    ((∀ input : List Char, (Input.items input).length < budget.turns input) ∧
      start.position.line.val + start.left ≤ 4294967295 ∧
      start.position.column.val + 8 * start.left ≤ 4294967295) ∧
      ∃ hint, (keyword "let").parser rules budget (.start none) start =
        .returned ⟨.consumed, .success "let" ⟨['x'], (), behind⟩ hint⟩ := by
  intro rules budget start behind
  have hturns : ∀ input : List Char, (Input.items input).length < budget.turns input := fun input =>
    Nat.lt_succ_self _
  have hline : start.position.line.val + start.left ≤ 4294967295 := by decide
  have hcolumn : start.position.column.val + 8 * start.left ≤ 4294967295 := by decide
  obtain ⟨⟨tag, reply⟩, hrun, hsuccess, htaken, -⟩ :=
    keyword_accepts_lexeme rules hturns (.start none) "let" hline hcolumn
  have hends : ∀ c ∈ ['\n', 'x'].head?, isAlphanum c = false := by
    rintro c ⟨⟩
    decide
  have hfound : reply.isSuccess = true := hsuccess.2 ⟨['\n', 'x'], rfl, hends⟩
  cases reply with
  | failure error => cases hfound
  | success output next hint =>
    obtain ⟨after, htext, rfl, hrest, hposition, -, htag⟩ := htaken output next hint rfl
    have htext : "let".toList ++ ['\n', 'x'] = "let".toList ++ after := htext
    cases List.append_cancel_left htext
    have htag : tag = .consumed := htag.2 (by decide)
    have hmoved : start.position.advanceText [' ', 'l', 'e', 't', '\n'] = some behind := by decide
    have hbehind : behind = next.position := Option.some.inj (hmoved.symm.trans hposition)
    have hnext : next = ⟨['x'], (), behind⟩ := by
      rw [hbehind]
      cases next
      cases hrest
      rfl
    refine ⟨⟨hturns, hline, hcolumn⟩, hint, ?_⟩
    rw [hrun, htag, hnext]

/-! ## Sets of keywords -/

variable {words : List String}

section Keywords

variable (hfits : state.Fits)
include hturns hfits

theorem eq_of_keywords_accept {word other : String} (hword : word.toList.all isAlphanum = true)
    (hother : other.toList.all isAlphanum = true)
    (h : ((keyword word).parser rules budget).Accepts context state)
    (h' : ((keyword other).parser rules budget).Accepts context state) : word = other := by
  obtain ⟨after, hafter⟩ := (keyword_accepts_iff rules hturns context hfits word).1 h
  obtain ⟨after', hafter'⟩ := (keyword_accepts_iff rules hturns context hfits other).1 h'
  exact String.ext (hafter.unique hafter' hword hother)

theorem keywords_exclusive (hdistinct : words.Nodup)
    (halphanum : ∀ word ∈ words, word.toList.all isAlphanum = true) :
    Parser.Exclusive (words.map fun word => (keyword word).parser rules budget) context state := by
  refine List.pairwise_map.2 (hdistinct.imp_of_mem fun {word other} hword hother hne => ?_)
  by_cases h : ((keyword word).parser rules budget).Accepts context state
  · have hnot : ¬ ((keyword other).parser rules budget).Accepts context state := fun h' =>
      hne (eq_of_keywords_accept rules hturns context hfits (halphanum word hword)
        (halphanum other hother) h h')
    obtain ⟨error, hrun, -⟩ := keyword_rejects_of_not_accepts rules hturns context hfits hnot
    exact Or.inr ⟨error, hrun⟩
  · obtain ⟨error, hrun, -⟩ := keyword_rejects_of_not_accepts rules hturns context hfits h
    exact Or.inl ⟨error, hrun⟩

theorem choiceOf_keywords_eq (hdistinct : words.Nodup)
    (hwords : ∀ word ∈ words, word ≠ "" ∧ word.toList.all isAlphanum = true) {word : String}
    (hword : word ∈ words) (h : ((keyword word).parser rules budget).Accepts context state) :
    (Grammar.choiceOf (words.map keyword)).parser rules budget context state =
      (keyword word).parser rules budget context state := by
  obtain ⟨result, hrun, htag⟩ :=
    keyword_consumes_of_accepts rules hturns context hfits (hwords word hword).1 h
  have hexclusive := keywords_exclusive rules hturns context hfits hdistinct fun word hword =>
    (hwords word hword).2
  rw [parser_choiceOf_keywords, hrun]
  exact hexclusive.choiceOf_eq (List.mem_map_of_mem hword) hrun htag

theorem choiceOf_keywords_rejects {order order' : List String} (hperm : order.Perm order')
    (h : ∀ word ∈ order, ¬ ((keyword word).parser rules budget).Accepts context state) :
    ∃ first second,
      (Grammar.choiceOf (order.map keyword)).parser rules budget context state =
        .returned (.reject first) ∧
      (Grammar.choiceOf (order'.map keyword)).parser rules budget context state =
        .returned (.reject second) ∧
      first.position = second.position ∧ first.messages.Perm second.messages := by
  have hrejects : ∀ p ∈ order.map fun word => (keyword word).parser rules budget, ∃ error,
      p context state = .returned (.reject error) ∧
        error.position.name = state.position.name := by
    intro p hp
    obtain ⟨word, hword, rfl⟩ := List.mem_map.1 hp
    exact keyword_rejects_of_not_accepts rules hturns context hfits (h word hword)
  rw [parser_choiceOf_keywords, parser_choiceOf_keywords]
  obtain ⟨first, second, hfirst, hsecond, hname, hname', hreordered⟩ :=
    Parser.choiceOf_rejects_perm (P := fun position => position.name = state.position.name) rfl
      (hperm.map _) hrejects
  exact ⟨first, second, hfirst, hsecond, hreordered.position_eq (hname.trans hname'.symm),
    hreordered.messages⟩

end Keywords

include hturns in
/-- Of a set of words that are made of letters and digits, and of which any may begin another, at
most one is found as a keyword at one place. A choice of the keywords succeeds exactly if one of
them does, and has the result of that one, in whatever order they are tried. If none does, the
choice fails without having read input, at the same position in every order and with the same
messages up to order. -/
theorem keywords_unambiguous (hdistinct : words.Nodup)
    (hwords : ∀ word ∈ words, word ≠ "" ∧ word.toList.all isAlphanum = true)
    (hline : state.position.line.val + state.left ≤ 4294967295)
    (hcolumn : state.position.column.val + 8 * state.left ≤ 4294967295) :
    let one (word : String) : Parser σ υ String := (keyword word).parser rules budget
    let choice (order : List String) : Parser σ υ String :=
      (Grammar.choiceOf (order.map keyword)).parser rules budget
    (∀ word ∈ words, ∀ other ∈ words, (one word).Accepts context state →
      (one other).Accepts context state → word = other) ∧
    (∀ order, words.Perm order →
      ((choice order).Accepts context state ↔ ∃ word ∈ words, (one word).Accepts context state) ∧
      ∀ word ∈ words, (one word).Accepts context state →
        choice order context state = one word context state) ∧
    ((∀ word ∈ words, ¬ (one word).Accepts context state) →
      ∀ order order', words.Perm order → words.Perm order' → ∃ error error',
        choice order context state = .returned (.reject error) ∧
        choice order' context state = .returned (.reject error') ∧
        error.position = error'.position ∧ error.messages.Perm error'.messages) := by
  intro one choice
  have hfits : state.Fits := ⟨hline, hcolumn⟩
  refine ⟨fun word hword other hother h h' => ?_, fun order horder => ?_,
    fun hnone order order' horder horder' => ?_⟩
  · exact eq_of_keywords_accept rules hturns context hfits (hwords word hword).2
      (hwords other hother).2 h h'
  · have heq : ∀ word ∈ words, (one word).Accepts context state →
        choice order context state = one word context state := fun word hword h =>
      choiceOf_keywords_eq rules hturns context hfits (horder.nodup_iff.1 hdistinct)
        (fun word hword => hwords word (horder.mem_iff.2 hword)) (horder.mem_iff.1 hword) h
    refine ⟨⟨fun hchoice => ?_, fun ⟨word, hword, result, hrun, hsuccess⟩ => ?_⟩, heq⟩
    · by_contra hnone
      obtain ⟨error, -, hrun, -⟩ := choiceOf_keywords_rejects rules hturns context hfits
        (List.Perm.refl order) fun word hword h => hnone ⟨word, horder.mem_iff.2 hword, h⟩
      exact Parser.Rejects.not_accepts ⟨error, hrun⟩ hchoice
    · exact ⟨result, (heq word hword ⟨result, hrun, hsuccess⟩).trans hrun, hsuccess⟩
  · exact choiceOf_keywords_rejects rules hturns context hfits (horder.symm.trans horder')
      fun word hword => hnone word (horder.mem_iff.2 hword)

/-- A word that begins another one. The longer one is accepted where it stands, and found in both
orders. -/
theorem letter_found_in_both_orders :
    let rules : Rules (List Char) Char Unit (fun _ : Empty => Unit) := Empty.rec
    let budget : Budget (List Char) := ⟨fun input => input.length + 1, 0⟩
    let start : State (List Char) Unit := ⟨['l', 'e', 't', 't', 'e', 'r'], (), .initial "f"⟩
    let words := ["let", "letter"]
    let one (word : String) := (keyword word).parser rules budget (.start none) start
    let choice (order : List String) :=
      (Grammar.choiceOf (order.map keyword)).parser rules budget (.start none) start
    ((∀ input : List Char, (Input.items input).length < budget.turns input) ∧ words.Nodup ∧
      (∀ word ∈ words, word ≠ "" ∧ word.toList.all isAlphanum = true) ∧
      start.position.line.val + start.left ≤ 4294967295 ∧
      start.position.column.val + 8 * start.left ≤ 4294967295) ∧
      ((keyword "letter").parser rules budget).Accepts (.start none) start ∧
      choice ["let", "letter"] = one "letter" ∧ choice ["letter", "let"] = one "letter" ∧
      ¬ ((keyword "let").parser rules budget).Accepts (.start none) start := by
  intro rules budget start words one choice
  have hturns : ∀ input : List Char, (Input.items input).length < budget.turns input := fun input =>
    Nat.lt_succ_self _
  have hdistinct : words.Nodup := by decide
  have hwords : ∀ word ∈ words, word ≠ "" ∧ word.toList.all isAlphanum = true := by decide
  have hline : start.position.line.val + start.left ≤ 4294967295 := by decide
  have hcolumn : start.position.column.val + 8 * start.left ≤ 4294967295 := by decide
  obtain ⟨hone, hchoice, -⟩ :=
    keywords_unambiguous rules hturns (.start none) hdistinct hwords hline hcolumn
  have hletter : ((keyword "letter").parser rules budget).Accepts (.start none) start :=
    (keyword_accepts_iff rules hturns (.start none) ⟨hline, hcolumn⟩ "letter").2
      ⟨[], ⟨rfl, nofun⟩⟩
  refine ⟨⟨hturns, hdistinct, hwords, hline, hcolumn⟩, hletter, ?_, ?_, fun hlet => ?_⟩
  · exact (hchoice words (List.Perm.refl words)).2 "letter" (by decide) hletter
  · exact (hchoice ["letter", "let"] (List.Perm.swap ..)).2 "letter" (by decide) hletter
  · exact absurd (hone "let" (by decide) "letter" (by decide) hlet hletter) (by decide)

end Chars

end Parsing
