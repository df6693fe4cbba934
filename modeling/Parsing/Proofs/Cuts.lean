import Parsing.Proofs.Lexemes

/-!
# Texts that are cut into pieces

A text that is read piece by piece is read like the whole text: with the same tag, and where all of
it is there with the same output, state and hint. Only the place of a failure tells the two apart,
since the whole text fails where it starts and the pieces fail where the first missing one would
have started.

The pieces may be put together in any grouping, and some or all of them may be empty.
-/

namespace Parsing

namespace Chars

variable {σ υ ι : Type} {ρ : ι → Type}

/-- A text with the places where it is cut: it is in one piece, or in two parts of which each may be
cut again. -/
inductive Cut where
  /-- One piece. -/
  | piece (text : String)
  /-- Two parts, one behind the other. -/
  | parts (first second : Cut)

namespace Cut

/-- The text that is cut. -/
def text : Cut → String
  | piece text => text
  | parts first second => first.text ++ second.text

/-- The pieces, in their order. -/
def pieces : Cut → List String
  | piece text => [text]
  | parts first second => first.pieces ++ second.pieces

/-- Reads the pieces one after the other, and joins what they are. -/
def grammar : Cut → Grammar σ Char υ ρ String
  | piece text => string text
  | parts first second =>
    .bind first.grammar fun output => .map (output ++ ·) second.grammar

theorem toList_text (cut : Cut) : cut.text.toList = cut.pieces.flatMap String.toList := by
  induction cut with
  | piece text => simp [Cut.text, pieces]
  | parts first second ihf ihs =>
    rw [text, pieces, String.toList_append, ihf, ihs, List.flatMap_append]

end Cut

/-! ## The first missing piece -/

/-- What the pieces before the first missing one make up. A piece is missing if it is not a
beginning of what the pieces before it leave of the characters. -/
def beforeMissing : (pieces : List String) → List Char → Option (List Char)
  | [], _ => none
  | piece :: pieces, chars =>
    if piece.toList <+: chars then
      (beforeMissing pieces (chars.drop piece.toList.length)).map (piece.toList ++ ·)
    else some []

section BeforeMissing

variable {pieces more : List String} {chars passed : List Char}

theorem beforeMissing_append (h : beforeMissing pieces chars = some passed) :
    beforeMissing (pieces ++ more) chars = some passed := by
  induction pieces generalizing chars passed with
  | nil => cases h
  | cons piece pieces ih =>
    rw [List.cons_append]
    unfold beforeMissing at h ⊢
    split
    · rename_i hpiece
      rw [if_pos hpiece] at h
      obtain ⟨rest, hrest, rfl⟩ := Option.map_eq_some_iff.1 h
      rw [ih hrest, Option.map_some]
    · rename_i hpiece
      rwa [if_neg hpiece] at h

/-- Of pieces that are all there, the first missing one comes later. -/
theorem beforeMissing_append_of_found (h : pieces.flatMap String.toList <+: chars) :
    beforeMissing (pieces ++ more) chars =
      (beforeMissing more (chars.drop (pieces.flatMap String.toList).length)).map
        (pieces.flatMap String.toList ++ ·) := by
  induction pieces generalizing chars with
  | nil => simp
  | cons piece pieces ih =>
    rw [List.flatMap_cons] at h ⊢
    obtain ⟨rest, rfl⟩ := h
    have hpieces : pieces.flatMap String.toList <+: pieces.flatMap String.toList ++ rest :=
      List.prefix_append _ _
    rw [List.drop_left, List.cons_append, beforeMissing, List.append_assoc,
      if_pos (List.prefix_append _ _), List.drop_left, ih hpieces, List.drop_left, Option.map_map]
    congr 1
    funext passed
    exact (List.append_assoc _ _ _).symm

end BeforeMissing

/-! ## Reading piece by piece -/

variable [Input σ Char] {rules : Rules σ Char υ ρ} {budget : Budget σ} {state : State σ υ}
  {position : Position}

theorem parser_parts (first second : Cut) :
    ((first.parts second).grammar : Grammar σ Char υ ρ String).parser rules budget =
      Parser.bind (first.grammar.parser rules budget) fun output =>
        Parser.map (output ++ ·) (second.grammar.parser rules budget) := by
  obtain ⟨turns, depth⟩ := budget
  cases depth <;> rfl

variable [LawfulInput σ] (rules : Rules σ Char υ ρ) (budget : Budget σ) (context : Context)

namespace Cut

/-- Where the whole text is there, the pieces take it. -/
theorem takes (cut : Cut) (h : cut.text.toList <+: Input.items state.input)
    (hposition : state.position.advanceText cut.text.toList = some position) :
    ((cut.grammar : Grammar σ Char υ ρ String).parser rules budget).Takes context state
      cut.text.toList cut.text
      ⟨Input.drop cut.text.toList.length state.input, state.user, position⟩ [] := by
  induction cut generalizing state position with
  | piece text => exact string_takes_found rules budget context h hposition
  | parts first second ihf ihs =>
    rw [text, String.toList_append] at h hposition ⊢
    obtain ⟨middle, hmiddle, hend⟩ := Position.exists_of_advanceText_append hposition
    have hfirst := ihf ((List.prefix_append _ _).trans h) hmiddle
    rw [hfirst.reads.items, List.prefix_append_right_inj] at h
    have hsecond := ihs h hend
    rw [parser_parts, List.length_append, Input.drop_add]
    exact hfirst.bind_of_silent (hsecond.map (first.text ++ ·))

/-- Where it is not, the first missing piece fails. Input has been read exactly if the whole text
has anything in common with what is there. -/
theorem fails (cut : Cut) (h : ¬ cut.text.toList <+: Input.items state.input)
    (hposition : state.position.advanceText cut.text.toList = some position) :
    ∃ passed error, beforeMissing cut.pieces (Input.items state.input) = some passed ∧
      state.position.advanceText passed = some error.position ∧ error.isUnknown = false ∧
      (cut.grammar : Grammar σ Char υ ρ String).parser rules budget context state =
        .returned ⟨.ofRead (commonPrefix cut.text.toList (Input.items state.input)),
          .failure error⟩ := by
  induction cut generalizing state position with
  | piece text =>
    obtain ⟨messages, hne, hrun⟩ := string_fails rules budget context h
    refine ⟨[], ⟨state.position, messages⟩, if_neg h, rfl, ?_, hrun⟩
    exact List.isEmpty_eq_false_iff.2 hne
  | parts first second ihf ihs =>
    rw [text, String.toList_append] at h hposition ⊢
    obtain ⟨middle, hmiddle, hend⟩ := Position.exists_of_advanceText_append hposition
    by_cases hfound : first.text.toList <+: Input.items state.input
    -- The failure of the second part is an empty one if nothing of it is met, but input has been
    -- read by then, unless the first part is empty: the common beginning of the whole text tells
    -- the two apart.
    · have hfirst := first.takes rules budget context hfound hmiddle
      have hitems := hfirst.reads.items
      rw [hitems, List.prefix_append_right_inj] at h
      obtain ⟨passed, error, hpassed, hat, hknown, hrun⟩ := ihs h hend
      refine ⟨first.text.toList ++ passed, error, ?_, ?_, hknown, ?_⟩
      · rw [pieces, beforeMissing_append_of_found (first.toList_text ▸ hfound), ← first.toList_text,
          ← Input.items_drop, hpassed, Option.map_some]
      · rw [Position.advanceText_append, hmiddle]
        exact hat
      · rw [hitems, commonPrefix_append, parser_parts]
        exact hfirst.bind_failure (Parser.map_of_failure hrun) hknown
    · obtain ⟨passed, error, hpassed, hat, hknown, hrun⟩ := ihf hfound hmiddle
      refine ⟨passed, error, beforeMissing_append hpassed, hat, hknown, ?_⟩
      rw [commonPrefix_append_of_not_found hfound, parser_parts]
      exact Parser.bind_of_failure hrun

end Cut

/-- A text is read alike as a whole and in pieces, however it is cut, as long as there is a position
behind it: with the same tag, and both succeed or both fail. If they succeed, they do so with the
same output, in the same state and with the same hint. If they fail, the whole text does so where it
starts, and the pieces where the first one would have started that is not a beginning of what those
before it leave. -/
theorem texts_split_anywhere (cut : Cut)
    (hposition : state.position.advanceText cut.text.toList = some position) :
    ∃ whole parts : Result σ υ String,
      (string cut.text).parser rules budget context state = .returned whole ∧
      cut.grammar.parser rules budget context state = .returned parts ∧
      parts.tag = whole.tag ∧ parts.reply.isSuccess = whole.reply.isSuccess ∧
      (whole.reply.isSuccess = true → parts = whole) ∧
      (∀ error, whole.reply = .failure error → error.position = state.position) ∧
      ∀ error, parts.reply = .failure error →
        ∃ passed, beforeMissing cut.pieces (Input.items state.input) = some passed ∧
          state.position.advanceText passed = some error.position := by
  by_cases h : cut.text.toList <+: Input.items state.input
  · have hwhole := string_takes_found rules budget context h hposition
    have hparts := cut.takes rules budget context h hposition
    exact ⟨_, _, hwhole.run, hparts.run, rfl, rfl, fun _ => rfl, nofun, nofun⟩
  · obtain ⟨messages, -, hwhole⟩ := string_fails rules budget context h
    obtain ⟨passed, error, hpassed, hat, -, hparts⟩ := cut.fails rules budget context h hposition
    refine ⟨_, _, hwhole, hparts, rfl, rfl, nofun, ?_, ?_⟩
    · rintro _ ⟨⟩
      rfl
    · rintro _ ⟨⟩
      exact ⟨passed, hpassed, hat⟩

/-- Six letters in three pieces, of which the second one is empty and the third one is missing. -/
theorem third_piece_fails_behind_first :
    let rules : Rules (List Char) Char Unit (fun _ : Empty => Unit) := Empty.rec
    let budget : Budget (List Char) := ⟨fun input => input.length + 1, 0⟩
    let start : State (List Char) Unit := ⟨['a', 'b', 'c', 'e', 'e', 'f'], (), .initial "f"⟩
    let cut : Cut := .parts (.piece "abc") (.parts (.piece "") (.piece "def"))
    let fourth : Position := ⟨"f", .first, ⟨4, by decide, by decide⟩⟩
    let seventh : Position := ⟨"f", .first, ⟨7, by decide, by decide⟩⟩
    start.position.advanceText cut.text.toList = some seventh ∧
      ∃ error error',
        (string cut.text).parser rules budget (.start none) start =
          .returned ⟨.consumed, .failure error⟩ ∧
        cut.grammar.parser rules budget (.start none) start =
          .returned ⟨.consumed, .failure error'⟩ ∧
        error.position = start.position ∧ error'.position = fourth := by
  intro rules budget start cut fourth seventh
  have hposition : start.position.advanceText cut.text.toList = some seventh := by decide
  obtain ⟨whole, ⟨tag, reply⟩, hwhole, hparts, htag, hsuccess, -, hstart, hpassed⟩ :=
    texts_split_anywhere rules budget (.start none) cut hposition
  have hmissing : ¬ cut.text.toList <+: start.input := by decide
  obtain ⟨messages, -, hfailed⟩ := string_fails rules budget (.start none) hmissing
  have hmet : Tag.ofRead (commonPrefix cut.text.toList (Input.items start.input)) = .consumed := by
    decide
  rw [hmet] at hfailed
  obtain rfl := Outcome.returned.inj (hwhole.symm.trans hfailed)
  cases reply with
  | success output next hint => cases hsuccess
  | failure error' =>
    obtain ⟨passed, hbefore, hat⟩ := hpassed error' rfl
    obtain rfl : ['a', 'b', 'c'] = passed := Option.some.inj hbefore
    have hfourth : start.position.advanceText ['a', 'b', 'c'] = some fourth := by decide
    have htag : tag = .consumed := htag
    rw [htag] at hparts
    exact ⟨hposition, _, error', hfailed, hparts, hstart _ rfl,
      Option.some.inj (hat.symm.trans hfourth)⟩

end Chars

end Parsing
