import Mathlib.Data.List.TakeWhile
import Parsing.Proofs.Exclusive
import Parsing.Proofs.Runs

/-!
# Lists of words with a delimiter

Words of letters and digits are read with a delimiter between each two. A text holds such a list in
one way only: each word goes on for as long as it can, and so does the list. The one way to fail is
a delimiter without a word behind it, since what has been read by then is not given back.
-/

namespace Parsing

variable {σ τ υ α : Type}

namespace Parser

/-! ## Turns that read input -/

section Turns

variable [Input σ τ] [Spaced τ] {p : Parser σ υ α} {context : Context} {s t u : State σ υ}
  {item : τ} {read more : List τ} {output : α} {outputs : List α}
  {messages messages' : List Message}
  {count : Nat} {error : ParseError}

theorem many_succ_eq_bind {reply : Reply σ υ α} (h : p context s = .returned ⟨.consumed, reply⟩) :
    many (fun _ => count + 1) p context s =
      Parser.bind p (fun first => Parser.map (first :: ·) (many (fun _ => count) p)) context s := by
  rw [many_succ_of_consumed h, many1_eq_bind_many]

theorem takes_many_nil (h : p context s = .returned (.reject ⟨s.position, messages⟩)) :
    (many (fun _ => count + 1) p).Takes context s ([] : List τ) [] s messages := by
  refine ⟨s.reads_nil, rfl, ?_⟩
  have hstop : accumulate (fun acc output => output :: acc) p context (count + 1) [] none s =
      .returned ⟨.empty, .success [] s ⟨s.position, messages⟩⟩ :=
    accumulate_of_reject h count [] (by simp)
  unfold many collect
  rw [hstop]
  rfl

/-- A turn that reads input, and what the turns behind it take. -/
theorem Takes.many_cons (h : p.Takes context s (item :: read) output t messages)
    (h' : (many (fun _ => count) p).Takes context t more outputs u messages') :
    (many (fun _ => count + 1) p).Takes context s (item :: read ++ more) (output :: outputs) u
      (if more.isEmpty then messages ++ messages' else messages') := by
  have hboth := h.bind (f := fun first => Parser.map (first :: ·) (many (fun _ => count) p))
    (h'.map (output :: ·))
  refine ⟨hboth.reads, hboth.user, ?_⟩
  rw [many_succ_eq_bind h.run]
  exact hboth.run

theorem many_of_failure (h : p context s = .returned ⟨.consumed, .failure error⟩) :
    many (fun _ => count + 1) p context s = .returned ⟨.consumed, .failure error⟩ := by
  rw [many_succ_eq_bind h]
  exact bind_of_failure h

/-- A failure that has read input goes through the turns before it. -/
theorem Takes.many_failure (h : p.Takes context s (item :: read) output t messages)
    (h' : many (fun _ => count) p context t = .returned ⟨.consumed, .failure error⟩) :
    many (fun _ => count + 1) p context s = .returned ⟨.consumed, .failure error⟩ := by
  rw [many_succ_eq_bind h.run]
  exact h.bind_of_consumed (map_of_failure h') rfl

end Turns

end Parser

namespace Chars

/-! ## Texts made of words -/

/-- At least one letter or digit, and nothing else. -/
structure IsWord (word : String) : Prop where
  /-- There is a first character. -/
  nonempty : word.toList ≠ []
  /-- Each character is a letter or a digit. -/
  alphanum : ∀ c ∈ word.toList, isAlphanum c = true

/-- The words with a delimiter between each two. -/
def joined (d : Char) (words : List String) : List Char :=
  [d].intercalate (words.map String.toList)

/-- The words with a delimiter in front of each. -/
def delimited (d : Char) (words : List String) : List Char :=
  words.flatMap fun word => d :: word.toList

/-- The text begins with a list of words, which goes on for as long as it can. -/
structure ListAt (d : Char) (words : List String) (text rest : List Char) : Prop where
  /-- The list is what the text begins with. -/
  text_eq : text = joined d words ++ rest
  /-- It is made of words. -/
  isWord : ∀ word ∈ words, IsWord word
  /-- The last word does not go on. Nor does a first word follow, where there is none. -/
  ends : ∀ c ∈ rest.head?, isAlphanum c = false
  /-- No delimiter follows the words. -/
  complete : words ≠ [] → rest.head? ≠ some d

/-- The text begins with a list of words and a delimiter, behind which there is no word. -/
structure DanglingAt (d : Char) (words : List String) (text rest : List Char) : Prop where
  /-- The list and the delimiter are what the text begins with. -/
  text_eq : text = joined d words ++ d :: rest
  /-- There is a word in front of the delimiter. -/
  nonempty : words ≠ []
  /-- The list is made of words. -/
  isWord : ∀ word ∈ words, IsWord word
  /-- There is none behind the delimiter. -/
  ends : ∀ c ∈ rest.head?, isAlphanum c = false

variable {d : Char} {word first : String} {words : List String} {text rest more : List Char}

theorem delimited_cons_append (d : Char) (word : String) (words : List String) (more : List Char) :
    delimited d (word :: words) ++ more = d :: word.toList ++ (delimited d words ++ more) := by
  simp [delimited]

theorem joined_cons (d : Char) (first : String) (words : List String) :
    joined d (first :: words) = first.toList ++ delimited d words := by
  induction words generalizing first with
  | nil => simp [joined, delimited]
  | cons second words ih =>
    have hstep : joined d (first :: second :: words) =
        first.toList ++ [d] ++ joined d (second :: words) := by
      simp [joined, List.intercalate_cons_cons]
    rw [hstep, ih]
    simp [delimited]

theorem ofRead_joined_eq_consumed_iff (hwords : ∀ word ∈ words, IsWord word) :
    Tag.ofRead (joined d words) = .consumed ↔ words ≠ [] := by
  rw [Tag.ofRead_eq_consumed_iff]
  cases words with
  | nil => simp [joined]
  | cons first words =>
    have hfirst : first.toList ≠ [] := (List.forall_mem_cons.1 hwords).1.nonempty
    simp [joined_cons, hfirst]

/-- Each text begins with a word and what does not go on with it, or with no word at all. -/
theorem exists_word_or_not (text : List Char) :
    (∃ word rest, IsWord word ∧ text = word.toList ++ rest ∧
      ∀ c ∈ rest.head?, isAlphanum c = false) ∨ ∀ c ∈ text.head?, isAlphanum c = false := by
  rcases begins_or_not isAlphanum text with ⟨c, more, rfl, hc⟩ | hnone
  · refine Or.inl ⟨String.ofList (c :: more.takeWhile isAlphanum), more.dropWhile isAlphanum,
      ⟨by simp, ?_⟩, ?_, head?_dropWhile_eq_false isAlphanum more⟩
    · rw [String.toList_ofList]
      exact List.forall_mem_cons.2 ⟨hc, fun b hb => List.mem_takeWhile_imp hb⟩
    · rw [String.toList_ofList, List.cons_append, List.takeWhile_append_dropWhile]
  · exact Or.inr hnone

/-- Behind a word, there are delimited words for as long as there can be. -/
theorem exists_delimited (d : Char) (text : List Char)
    (h : ∀ c ∈ text.head?, isAlphanum c = false) :
    ∃ words rest, (∀ word ∈ words, IsWord word) ∧ (∀ c ∈ rest.head?, isAlphanum c = false) ∧
      (text = delimited d words ++ rest ∧ rest.head? ≠ some d ∨
        text = delimited d words ++ d :: rest) := by
  induction hlen : text.length using Nat.strong_induction_on generalizing text with
  | _ len ih =>
    cases text with
    | nil => exact ⟨[], [], by simp, by simp, Or.inl ⟨rfl, by simp⟩⟩
    | cons c text =>
      by_cases hc : c = d
      · subst hc
        rcases exists_word_or_not text with ⟨word, after, hword, rfl, hafter⟩ | hnone
        · have hless : after.length < len := by
            rw [← hlen, List.length_cons, List.length_append]
            omega
          obtain ⟨words, rest, hwords, hrest, htext⟩ := ih _ hless after hafter rfl
          refine ⟨word :: words, rest, List.forall_mem_cons.2 ⟨hword, hwords⟩, hrest, ?_⟩
          rcases htext with ⟨rfl, hcomplete⟩ | rfl
          · exact Or.inl ⟨(delimited_cons_append ..).symm, hcomplete⟩
          · exact Or.inr (delimited_cons_append ..).symm
        · exact ⟨[], text, by simp, hnone, Or.inr rfl⟩
      · exact ⟨[], c :: text, by simp, h, Or.inl ⟨rfl, by simpa using hc⟩⟩

/-- Each text begins with a list of words, which may be empty, or with one that has a delimiter too
many. -/
theorem listAt_or_danglingAt (d : Char) (text : List Char) :
    ∃ words rest, ListAt d words text rest ∨ DanglingAt d words text rest := by
  rcases exists_word_or_not text with ⟨first, after, hfirst, rfl, hafter⟩ | hnone
  · obtain ⟨words, rest, hwords, hrest, htext⟩ := exists_delimited d after hafter
    have hall : ∀ word ∈ first :: words, IsWord word := List.forall_mem_cons.2 ⟨hfirst, hwords⟩
    refine ⟨first :: words, rest, ?_⟩
    rcases htext with ⟨rfl, hcomplete⟩ | rfl
    · refine Or.inl ⟨?_, hall, hrest, fun _ => hcomplete⟩
      rw [joined_cons, List.append_assoc]
    · refine Or.inr ⟨?_, List.cons_ne_nil _ _, hall, hrest⟩
      rw [joined_cons, List.append_assoc]
  · exact ⟨[], text, Or.inl ⟨rfl, by simp, hnone, by simp⟩⟩

/-- What stands behind a word of the list does not go on with it. -/
theorem delimited_ends (hd : isAlphanum d = false) (words : List String)
    (h : ∀ c ∈ rest.head?, isAlphanum c = false) :
    ∀ c ∈ (delimited d words ++ rest).head?, isAlphanum c = false := by
  cases words with
  | nil => exact h
  | cons word words => simpa [delimited] using hd

/-! ## Reading them -/

variable {υ ι : Type} {ρ : ι → Type} [Input σ Char] {rules : Rules σ Char υ ρ} {budget : Budget σ}

theorem parser_sepBy {α β : Type} (p : Grammar σ Char υ ρ α) (separator : Grammar σ Char υ ρ β) :
    (Grammar.sepBy p separator).parser rules budget =
      Parser.sepBy budget.turns (p.parser rules budget) (separator.parser rules budget) := by
  obtain ⟨turns, depth⟩ := budget
  cases depth <;> rfl

variable [LawfulInput σ] {state : State σ υ} (rules : Rules σ Char υ ρ)

section Turns

variable {count : Nat} (hturns : ∀ input : σ, (Input.items input).length < budget.turns input)
  (context : Context)

include hturns

theorem word_takes (hfits : state.Fits) (hword : IsWord word)
    (hitems : Input.items state.input = word.toList ++ more)
    (hends : ∀ c ∈ more.head?, isAlphanum c = false) :
    ∃ next, ((alphanums : Grammar σ Char υ ρ String).parser rules budget).Takes context state
      word.toList word next [⟨.expected, "letter or digit"⟩] := by
  have hrun : (Input.items state.input).takeWhile isAlphanum = word.toList := by
    rw [hitems, List.takeWhile_append_of_pos hword.alphanum, takeWhile_eq_nil_iff.2 hends,
      List.append_nil]
  obtain ⟨c, rest, hcons⟩ := List.exists_cons_of_ne_nil hword.nonempty
  have hc : isAlphanum c = true := hword.alphanum c (by simp [hcons])
  have hfirst : Input.items state.input = c :: (rest ++ more) := by
    rw [hitems, hcons, List.cons_append]
  obtain ⟨next, hnext⟩ := alphanums_takes rules context hturns hfits hfirst hc
  rw [hrun, String.ofList_toList] at hnext
  exact ⟨next, hnext⟩

/-- A delimiter and the word behind it are one turn of the loop. -/
theorem delimited_word_takes (hd : isAlphanum d = false) (hfits : state.Fits) (hword : IsWord word)
    (hends : ∀ c ∈ more.head?, isAlphanum c = false)
    (hitems : Input.items state.input = delimited d (word :: words) ++ more) :
    ∃ next, Input.items next.input = delimited d words ++ more ∧ next.Fits ∧
      next.left < state.left ∧
      (Parser.discardLeft ((char d).parser rules budget) (alphanums.parser rules budget)).Takes
        context state (d :: word.toList) word next [⟨.expected, "letter or digit"⟩] := by
  rw [delimited_cons_append] at hitems
  obtain ⟨behind, hbehind⟩ := (readsOne_char rules budget d).takes context hfits hitems (by simp)
  have hrest := hbehind.reads.rest_eq hitems
  obtain ⟨next, hnext⟩ := word_takes rules hturns context (hfits.of_reads hbehind.reads) hword hrest
    (delimited_ends hd words hends)
  have hboth := hbehind.discardLeft hnext
  rw [List.nil_append, ite_self] at hboth
  exact ⟨next, hboth.reads.rest_eq hitems, hfits.of_reads hboth.reads, hboth.reads.left_lt, hboth⟩

/-- The loop takes all the delimited words, and stops where no delimiter follows. -/
theorem delimited_takes (hd : isAlphanum d = false) (hwords : ∀ word ∈ words, IsWord word)
    (hends : ∀ c ∈ rest.head?, isAlphanum c = false) (hcomplete : rest.head? ≠ some d)
    (hfits : state.Fits) (hcount : state.left < count)
    (hitems : Input.items state.input = delimited d words ++ rest) :
    ∃ last messages,
      (Parser.many (fun _ => count) (Parser.discardLeft ((char d).parser rules budget)
        (alphanums.parser rules budget))).Takes context state (delimited d words) words last
        messages := by
  induction words generalizing state count with
  | nil =>
    cases count with
    | zero => omega
    | succ count =>
      have hnone : ∀ c ∈ (Input.items state.input).head?, (c == d) = false := by
        intro c hc
        rw [hitems] at hc
        refine beq_false_of_ne ?_
        rintro rfl
        exact hcomplete hc
      have hreject := (readsOne_char rules budget d).rejects context hnone
      exact ⟨state, _, Parser.takes_many_nil (Parser.bind_of_failure hreject)⟩
  | cons word words ih =>
    cases count with
    | zero => omega
    | succ count =>
      obtain ⟨hword, hwords⟩ := List.forall_mem_cons.1 hwords
      obtain ⟨next, hrest, hfits, hleft, hnext⟩ :=
        delimited_word_takes rules hturns context hd hfits hword hends hitems
      have hless : next.left < count := by omega
      obtain ⟨last, messages, hlast⟩ := ih hwords hfits hless hrest
      exact ⟨last, _, hnext.many_cons hlast⟩

/-- Behind a delimiter there has to be a word. -/
theorem delimited_fails (hd : isAlphanum d = false) (hwords : ∀ word ∈ words, IsWord word)
    (hends : ∀ c ∈ rest.head?, isAlphanum c = false) (hfits : state.Fits)
    (hcount : state.left < count)
    (hitems : Input.items state.input = delimited d words ++ d :: rest) :
    ∃ position messages, state.position.advanceText (delimited d words ++ [d]) = some position ∧
      Parser.many (fun _ => count) (Parser.discardLeft ((char d).parser rules budget)
        (alphanums.parser rules budget)) context state =
          .returned ⟨.consumed, .failure ⟨position, messages⟩⟩ := by
  induction words generalizing state count with
  | nil =>
    cases count with
    | zero => omega
    | succ count =>
      obtain ⟨behind, hbehind⟩ := (readsOne_char rules budget d).takes context
        hfits hitems (by simp)
      have hrest := hbehind.reads.rest_eq hitems
      have hreject : (alphanums : Grammar σ Char υ ρ String).parser rules budget context behind =
          .returned (.reject ⟨behind.position, [⟨.expected, "letter or digit"⟩]⟩) :=
        alphanums_rejects rules context (hrest ▸ hends)
      exact ⟨behind.position, _, hbehind.reads.position,
        Parser.many_of_failure (hbehind.bind_reject hreject)⟩
  | cons word words ih =>
    cases count with
    | zero => omega
    | succ count =>
      obtain ⟨hword, hwords⟩ := List.forall_mem_cons.1 hwords
      have hnone : ∀ c ∈ (d :: rest).head?, isAlphanum c = false := by simpa using hd
      obtain ⟨next, hrest, hfits, hleft, hnext⟩ :=
        delimited_word_takes rules hturns context hd hfits hword hnone hitems
      have hless : next.left < count := by omega
      obtain ⟨position, messages, hposition, hrun⟩ := ih hwords hfits hless hrest
      refine ⟨position, messages, ?_, hnext.many_failure hrun⟩
      have hmoved : state.position.advanceText (d :: word.toList) = some next.position :=
        hnext.reads.position
      rw [delimited_cons_append, Position.advanceText_append, hmoved, Option.bind_some, hposition]

/-- A list is taken up to where it ends. -/
theorem list_takes (hd : isAlphanum d = false) (hfits : state.Fits)
    (hlist : ListAt d words (Input.items state.input) rest) :
    ∃ next messages,
      ((Grammar.sepBy alphanums (char d) : Grammar σ Char υ ρ (List String)).parser rules
        budget).Takes context state (joined d words) words next messages := by
  rw [parser_sepBy, Parser.sepBy_eq_choice, Parser.sepBy1_eq_bind]
  cases words with
  | nil =>
    have hitems : Input.items state.input = rest := hlist.text_eq
    have hreject : (alphanums : Grammar σ Char υ ρ String).parser rules budget context state =
        .returned (.reject ⟨state.position, [⟨.expected, "letter or digit"⟩]⟩) :=
      alphanums_rejects rules context (hitems ▸ hlist.ends)
    exact ⟨state, _, Parser.takes_nothing_of_reject (Parser.bind_of_failure hreject) []⟩
  | cons first words =>
    obtain ⟨hfirst, hwords⟩ := List.forall_mem_cons.1 hlist.isWord
    have hitems : Input.items state.input = first.toList ++ (delimited d words ++ rest) := by
      rw [hlist.text_eq, joined_cons, List.append_assoc]
    obtain ⟨next, hnext⟩ := word_takes rules hturns context hfits hfirst hitems
      (delimited_ends hd words hlist.ends)
    -- The loop is given the turns that the input behind the first word asks for.
    obtain ⟨last, messages, hlast⟩ := delimited_takes rules hturns context hd hwords hlist.ends
      (hlist.complete (List.cons_ne_nil _ _)) (hfits.of_reads hnext.reads) (hturns next.input)
      (hnext.reads.rest_eq hitems)
    have hloop : (Parser.many budget.turns (Parser.discardLeft ((char d).parser rules budget)
        (alphanums.parser rules budget))).Takes context next (delimited d words) words last
          messages :=
      ⟨hlast.reads, hlast.user, hlast.run⟩
    have hread : first.toList ++ delimited d words ≠ [] := by
      simp [hfirst.nonempty]
    rw [joined_cons]
    exact ⟨last, _, (hnext.bind (hloop.map (first :: ·))).choice hread _⟩

/-- A delimiter without a word behind it has been read, and the failure lies right behind it. -/
theorem dangling_fails (hd : isAlphanum d = false) (hfits : state.Fits)
    (hdangling : DanglingAt d words (Input.items state.input) rest) :
    ∃ position messages, state.position.advanceText (joined d words ++ [d]) = some position ∧
      (Grammar.sepBy alphanums (char d) : Grammar σ Char υ ρ (List String)).parser rules budget
        context state = .returned ⟨.consumed, .failure ⟨position, messages⟩⟩ := by
  obtain ⟨first, words, rfl⟩ := List.exists_cons_of_ne_nil hdangling.nonempty
  obtain ⟨hfirst, hwords⟩ := List.forall_mem_cons.1 hdangling.isWord
  have hitems : Input.items state.input = first.toList ++ (delimited d words ++ d :: rest) := by
    rw [hdangling.text_eq, joined_cons, List.append_assoc]
  have hnone : ∀ c ∈ (d :: rest).head?, isAlphanum c = false := by simpa using hd
  obtain ⟨next, hnext⟩ := word_takes rules hturns context hfits hfirst hitems
    (delimited_ends hd words hnone)
  obtain ⟨position, messages, hposition, hrun⟩ := delimited_fails rules hturns context hd hwords
    hdangling.ends (hfits.of_reads hnext.reads) (hturns next.input) (hnext.reads.rest_eq hitems)
  have hmoved : state.position.advanceText first.toList = some next.position := hnext.reads.position
  refine ⟨position, messages, ?_, ?_⟩
  · rw [joined_cons, List.append_assoc, Position.advanceText_append, hmoved, Option.bind_some,
      hposition]
  · rw [parser_sepBy, Parser.sepBy_eq_choice, Parser.sepBy1_eq_bind]
    exact Parser.choice_of_consumed
      (hnext.bind_of_consumed (Parser.map_of_failure (g := (first :: ·)) hrun) rfl) rfl

/-- What has been read as a list is one, and it has been read up to its end. -/
theorem listAt_of_success (hd : isAlphanum d = false) (hfits : state.Fits) {tag : Tag}
    {next : State σ υ} {hint : ParseError}
    (h : (Grammar.sepBy alphanums (char d) : Grammar σ Char υ ρ (List String)).parser rules budget
      context state = .returned ⟨tag, .success words next hint⟩) :
    ListAt d words (Input.items state.input) (Input.items next.input) ∧
      (tag = .consumed ↔ words ≠ []) ∧ next.user = state.user ∧
        state.position.advanceText (joined d words) = some next.position := by
  obtain ⟨found, rest, hlist | hdangling⟩ := listAt_or_danglingAt d (Input.items state.input)
  · obtain ⟨last, messages, hlast⟩ := list_takes rules hturns context hd hfits hlist
    cases h.symm.trans hlast.run
    have hrest := hlast.reads.rest_eq hlist.text_eq
    exact ⟨hrest ▸ hlist, ofRead_joined_eq_consumed_iff hlist.isWord, hlast.user,
      hlast.reads.position⟩
  · obtain ⟨position, messages, -, hrun⟩ := dangling_fails rules hturns context hd hfits hdangling
    cases h.symm.trans hrun

/-- There is no other way to fail. -/
theorem danglingAt_of_failure (hd : isAlphanum d = false) (hfits : state.Fits) {tag : Tag}
    {error : ParseError}
    (h : (Grammar.sepBy alphanums (char d) : Grammar σ Char υ ρ (List String)).parser rules budget
      context state = .returned ⟨tag, .failure error⟩) :
    ∃ words rest, DanglingAt d words (Input.items state.input) rest := by
  obtain ⟨found, rest, hlist | hdangling⟩ := listAt_or_danglingAt d (Input.items state.input)
  · obtain ⟨last, messages, hlast⟩ := list_takes rules hturns context hd hfits hlist
    cases h.symm.trans hlast.run
  · exact ⟨found, rest, hdangling⟩

end Turns

/-- Wherever there is room for what is left to read, and for each delimiter that is no letter or
digit, the words with that delimiter between each two are read back as they are. The parser succeeds
exactly with the list of words that the text begins with and that goes on for as long as it can; it
has read input exactly if there is a word, and stands behind the last one. It fails exactly if the
list has one delimiter too many; that has been read, and the failure lies right behind it. There is
no other end. So each list of words is read from its text, with nothing left. -/
theorem word_lists_read_exactly
    (hturns : ∀ input : σ, (Input.items input).length < budget.turns input) (context : Context)
    (hd : isAlphanum d = false)
    (hline : state.position.line.val + state.left ≤ 4294967295)
    (hcolumn : state.position.column.val + 8 * state.left ≤ 4294967295) :
    let items := Input.items state.input
    let outcome :=
      (Grammar.sepBy alphanums (char d) : Grammar σ Char υ ρ (List String)).parser rules budget
        context state
    (∃ result, outcome = .returned result) ∧
    (∀ words rest, ListAt d words items rest ↔ ∃ tag next hint,
      outcome = .returned ⟨tag, .success words next hint⟩ ∧ Input.items next.input = rest) ∧
    (∀ tag words next hint, outcome = .returned ⟨tag, .success words next hint⟩ →
      (tag = .consumed ↔ words ≠ []) ∧ next.user = state.user ∧
        state.position.advanceText (joined d words) = some next.position) ∧
    ((∃ words rest, DanglingAt d words items rest) ↔
      ∃ tag error, outcome = .returned ⟨tag, .failure error⟩) ∧
    (∀ words rest, DanglingAt d words items rest → ∃ position messages,
      state.position.advanceText (joined d words ++ [d]) = some position ∧
        outcome = .returned ⟨.consumed, .failure ⟨position, messages⟩⟩) ∧
    ∀ words, (∀ word ∈ words, IsWord word) → items = joined d words → ∃ tag next hint,
      outcome = .returned ⟨tag, .success words next hint⟩ ∧ Input.items next.input = [] := by
  intro items outcome
  have hfits : state.Fits := ⟨hline, hcolumn⟩
  have hsucceeds : ∀ words rest, ListAt d words items rest → ∃ tag next hint,
      outcome = .returned ⟨tag, .success words next hint⟩ ∧ Input.items next.input = rest := by
    intro words rest hlist
    obtain ⟨next, messages, hnext⟩ := list_takes rules hturns context hd hfits hlist
    exact ⟨_, next, _, hnext.run, hnext.reads.rest_eq hlist.text_eq⟩
  have hfails : ∀ words rest, DanglingAt d words items rest → ∃ position messages,
      state.position.advanceText (joined d words ++ [d]) = some position ∧
        outcome = .returned ⟨.consumed, .failure ⟨position, messages⟩⟩ :=
    fun words rest hdangling => dangling_fails rules hturns context hd hfits hdangling
  refine ⟨?_, fun words rest => ⟨hsucceeds words rest, ?_⟩, fun tag words next hint hrun => ?_,
    ⟨?_, ?_⟩, hfails, fun words hwords htext => ?_⟩
  · obtain ⟨words, rest, hlist | hdangling⟩ := listAt_or_danglingAt d items
    · obtain ⟨tag, next, hint, hrun, -⟩ := hsucceeds words rest hlist
      exact ⟨_, hrun⟩
    · obtain ⟨position, messages, -, hrun⟩ := hfails words rest hdangling
      exact ⟨_, hrun⟩
  · rintro ⟨tag, next, hint, hrun, rfl⟩
    exact (listAt_of_success rules hturns context hd hfits hrun).1
  · exact (listAt_of_success rules hturns context hd hfits hrun).2
  · rintro ⟨words, rest, hdangling⟩
    obtain ⟨position, messages, -, hrun⟩ := hfails words rest hdangling
    exact ⟨_, _, hrun⟩
  · rintro ⟨tag, error, hrun⟩
    exact danglingAt_of_failure rules hturns context hd hfits hrun
  · exact hsucceeds words [] ⟨by rw [htext, List.append_nil], hwords, by simp, by simp⟩

/-- Two words before a blank, and one word with a delimiter that no second one follows. -/
theorem two_words_and_dangling_delimiter :
    let rules : Rules (List Char) Char Unit (fun _ : Empty => Unit) := Empty.rec
    let budget : Budget (List Char) := ⟨fun input => input.length + 1, 0⟩
    let start (text : List Char) : State (List Char) Unit := ⟨text, (), .initial "f"⟩
    let words : Parser (List Char) Unit (List String) :=
      (Grammar.sepBy alphanums (char ',')).parser rules budget
    let two := ['a', 'b', ',', '1', ' ']
    let dangling := ['a', 'b', ',', ' ']
    ((∀ input : List Char, (Input.items input).length < budget.turns input) ∧
      isAlphanum ',' = false ∧ ListAt ',' ["ab", "1"] two [' '] ∧
        DanglingAt ',' ["ab"] dangling [' ']) ∧
      (∃ tag next hint, words (.start none) (start two) =
        .returned ⟨tag, .success ["ab", "1"] next hint⟩ ∧ tag = .consumed ∧ next.input = [' ']) ∧
      ∃ position messages, (start dangling).position.advanceText ['a', 'b', ','] = some position ∧
        words (.start none) (start dangling) =
          .returned ⟨.consumed, .failure ⟨position, messages⟩⟩ := by
  intro rules budget start words two dangling
  have hturns : ∀ input : List Char, (Input.items input).length < budget.turns input := fun input =>
    Nat.lt_succ_self _
  have hd : isAlphanum ',' = false := by decide
  have hab : IsWord "ab" := ⟨by decide, List.all_eq_true.1 (by decide)⟩
  have hone : IsWord "1" := ⟨by decide, List.all_eq_true.1 (by decide)⟩
  have hblank : ∀ c ∈ [' '].head?, isAlphanum c = false := by
    rintro c ⟨⟩
    decide
  have hlist : ListAt ',' ["ab", "1"] two [' '] :=
    ⟨by decide, by simpa using ⟨hab, hone⟩, hblank, by decide⟩
  have hdangling : DanglingAt ',' ["ab"] dangling [' '] :=
    ⟨by decide, by decide, by simpa using hab, hblank⟩
  have hline : (start two).position.line.val + (start two).left ≤ 4294967295 := by decide
  have hcolumn : (start two).position.column.val + 8 * (start two).left ≤ 4294967295 := by decide
  have hline' : (start dangling).position.line.val + (start dangling).left ≤ 4294967295 := by decide
  have hcolumn' :
      (start dangling).position.column.val + 8 * (start dangling).left ≤ 4294967295 := by
    decide
  obtain ⟨-, hsucceeds, htagged, -⟩ :=
    word_lists_read_exactly rules hturns (.start none) hd hline hcolumn
  obtain ⟨-, -, -, -, hfails, -⟩ :=
    word_lists_read_exactly rules hturns (.start none) hd hline' hcolumn'
  obtain ⟨tag, next, hint, hrun, hrest⟩ := (hsucceeds ["ab", "1"] [' ']).1 hlist
  have htag : tag = .consumed := (htagged _ _ _ _ hrun).1.2 (by decide)
  exact ⟨⟨hturns, hd, hlist, hdangling⟩, ⟨tag, next, hint, hrun, htag, hrest⟩,
    hfails ["ab"] [' '] hdangling⟩

end Chars

end Parsing
