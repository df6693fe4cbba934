import Parsing.Proofs.Farthest

/-!
# Alternatives that exclude each other

If all alternatives but one fail without reading input, then the order in which a choice tries them
has no say in what it does. The error of each one that fails is merged with what the others report,
before it or behind it, whether the one that does not fail stands before or behind; and errors may
be merged in any order, up to the order of their messages. If the one that does not fail reads
input, nothing is merged with it.
-/

namespace Parsing

variable {σ υ α : Type}

/-! ## Results -/

namespace Result

/-- The results are the same if they have read input, and up to the order of what they report if
they have not. -/
structure Reordered (first second : Result σ υ α) : Prop where
  tag : first.tag = second.tag
  value? : first.reply.value? = second.reply.value?
  error : first.reply.error.Reordered second.reply.error
  eq_of_consumed : first.tag = .consumed → first = second

variable {first second third : Result σ υ α}

theorem reordered_refl (result : Result σ υ α) : result.Reordered result :=
  ⟨rfl, rfl, ParseError.reordered_refl _, fun _ => rfl⟩

theorem Reordered.symm (h : first.Reordered second) : second.Reordered first :=
  ⟨h.tag.symm, h.value?.symm, h.error.symm, fun htag => (h.eq_of_consumed (h.tag.trans htag)).symm⟩

theorem Reordered.trans (h : first.Reordered second) (h' : second.Reordered third) :
    first.Reordered third :=
  ⟨h.tag.trans h'.tag, h.value?.trans h'.value?, h.error.trans h'.error, fun htag =>
    (h.eq_of_consumed htag).trans (h'.eq_of_consumed (h.tag.symm.trans htag))⟩

theorem behind_reordered {a b : ParseError} (h : a.Reordered b) (result : Result σ υ α) :
    (result.behind .empty a).Reordered (result.behind .empty b) := by
  cases htag : result.tag with
  | consumed =>
    rw [behind_of_consumed htag, behind_of_consumed htag]
    exact reordered_refl result
  | empty =>
    rw [behind_of_empty htag, behind_of_empty htag]
    refine ⟨rfl, ?_, ?_, fun hconsumed => by cases hconsumed⟩
    · rw [Reply.after, Reply.value?_mapError, Reply.after, Reply.value?_mapError]
    · rw [Reply.after, Reply.error_mapError, Reply.after, Reply.error_mapError]
      exact h.merge (ParseError.reordered_refl _)

theorem reordered_success {a b : ParseError} (h : a.Reordered b) (output : α) (state : State σ υ) :
    Reordered ⟨.empty, .success output state a⟩ ⟨.empty, .success output state b⟩ :=
  ⟨rfl, rfl, h, fun hconsumed => by cases hconsumed⟩

/-- Alternatives behind the first one may be replaced by such as have the same result, up to
order. -/
theorem Reordered.otherwise (h : second.Reordered third) (first : Result σ υ α) :
    (first.otherwise second).Reordered (first.otherwise third) := by
  cases htag : second.tag with
  | consumed =>
    rw [h.eq_of_consumed htag]
    exact reordered_refl _
  | empty =>
    have htag' : third.tag = .empty := h.tag.symm.trans htag
    obtain ⟨_ | _, reply⟩ := first
    · cases reply with
      | success output state hint =>
        rw [success_otherwise, success_otherwise, heard_of_empty htag, heard_of_empty htag',
          ParseError.also_some, ParseError.also_some]
        exact reordered_success ((ParseError.reordered_refl hint).merge h.error) output state
      | failure error =>
        rw [failure_otherwise, failure_otherwise, behind_of_empty htag, behind_of_empty htag']
        refine ⟨rfl, ?_, ?_, fun hconsumed => by cases hconsumed⟩
        · rw [Reply.after, Reply.value?_mapError, Reply.after, Reply.value?_mapError]
          exact h.value?
        · rw [Reply.after, Reply.error_mapError, Reply.after, Reply.error_mapError]
          exact (ParseError.reordered_refl error).merge h.error
    · exact reordered_refl _

/-- An alternative that fails may change places with the one behind it, if that one or all that come
after the two fail as well. -/
theorem reject_otherwise_comm (error : ParseError) (second third : Result σ υ α)
    (h : (∃ other, second = reject other) ∨ ∃ other, third = reject other) :
    ((reject error).otherwise (second.otherwise third)).Reordered
      (second.otherwise ((reject error).otherwise third)) := by
  have hfailed (other : ParseError) (third : Result σ υ α) :
      ((third.behind .empty other).behind .empty error).Reordered
        ((third.behind .empty error).behind .empty other) := by
    rw [behind_behind_empty, behind_behind_empty]
    exact behind_reordered (ParseError.merge_comm_reordered error other) third
  rcases h with ⟨other, rfl⟩ | ⟨other, rfl⟩
  · exact hfailed other third
  · obtain ⟨_ | _, reply⟩ := second
    · cases reply with
      | success output state hint =>
        exact reordered_success (ParseError.merge_left_comm_reordered error hint other) output state
      | failure error' => exact hfailed error' (reject other)
    · exact reordered_refl _

end Result

/-! ## Parsers -/

namespace Parser

variable {p : Parser σ υ α} {ps ps' : List (Parser σ υ α)} {context : Context} {state : State σ υ}

theorem choice_of_consumed {q : Parser σ υ α} {result : Result σ υ α}
    (hp : p context state = .returned result) (htag : result.tag = .consumed) :
    choice p q context state = .returned result := by
  obtain ⟨tag, reply⟩ := result
  cases htag
  unfold choice
  rw [hp]
  rfl

/-- The parser fails at the state without reading input. -/
def Rejects (p : Parser σ υ α) (context : Context) (state : State σ υ) : Prop :=
  ∃ error, p context state = .returned (.reject error)

theorem rejects_iff {result : Result σ υ α} (hp : p context state = .returned result) :
    p.Rejects context state ↔ ∃ error, result = .reject error := by
  simp only [Rejects, hp, Outcome.returned.injEq]

theorem choiceOf_returns (h : ∀ p ∈ ps, ∃ result, p context state = .returned result) :
    ∃ result, choiceOf ps context state = .returned result := by
  induction ps with
  | nil => exact ⟨_, rfl⟩
  | cons p ps ih =>
    obtain ⟨first, hp⟩ := h p (List.mem_cons_self ..)
    obtain ⟨second, hps⟩ := ih fun q hq => h q (List.mem_cons_of_mem p hq)
    exact ⟨first.otherwise second, choice_of_returned hp hps⟩

/-- Where all alternatives fail without reading input, the choice fails where it started or where
one of them did. -/
theorem choiceOf_rejects_where {P : Position → Prop} (hstart : P state.position)
    (h : ∀ p ∈ ps, ∃ error, p context state = .returned (.reject error) ∧ P error.position) :
    ∃ error, choiceOf ps context state = .returned (.reject error) ∧ P error.position := by
  induction ps with
  | nil => exact ⟨_, rfl, hstart⟩
  | cons p ps ih =>
    obtain ⟨first, hp, hfirst⟩ := h p (List.mem_cons_self ..)
    obtain ⟨second, hps, hsecond⟩ := ih fun q hq => h q (List.mem_cons_of_mem p hq)
    refine ⟨first.merge second, choice_of_reject hp hps, ?_⟩
    rcases ParseError.position_merge first second with hmerge | hmerge
    · rw [hmerge]
      exact hfirst
    · rw [hmerge]
      exact hsecond

theorem choiceOf_rejects (h : ∀ p ∈ ps, p.Rejects context state) :
    (choiceOf ps).Rejects context state := by
  obtain ⟨error, herror, -⟩ := choiceOf_rejects_where (P := fun _ => True) trivial fun p hp =>
    (h p hp).imp fun _ hrun => ⟨hrun, trivial⟩
  exact ⟨error, herror⟩

/-- All of the parsers but one at most fail without reading input. -/
def Exclusive (ps : List (Parser σ υ α)) (context : Context) (state : State σ υ) : Prop :=
  ps.Pairwise fun p q => p.Rejects context state ∨ q.Rejects context state

theorem Exclusive.perm (h : Exclusive ps context state) (hperm : ps.Perm ps') :
    Exclusive ps' context state :=
  hperm.pairwise h fun hpq => hpq.symm

/-- Either a parser fails, or the choice of all others does. -/
theorem rejects_or_choiceOf (h : ∀ q ∈ ps, p.Rejects context state ∨ q.Rejects context state) :
    p.Rejects context state ∨ (choiceOf ps).Rejects context state := by
  by_cases hp : p.Rejects context state
  · exact Or.inl hp
  · exact Or.inr (choiceOf_rejects fun q hq => (h q hq).resolve_left hp)

/-- The one that reads input has the say. -/
theorem Exclusive.choiceOf_eq (h : Exclusive ps context state) (hp : p ∈ ps)
    {result : Result σ υ α} (hresult : p context state = .returned result)
    (htag : result.tag = .consumed) : choiceOf ps context state = .returned result := by
  have hnot : ¬ p.Rejects context state := by
    rw [rejects_iff hresult]
    rintro ⟨error, rfl⟩
    cases htag
  induction ps with
  | nil => cases hp
  | cons q ps ih =>
    obtain ⟨hfirst, hrest⟩ := List.pairwise_cons.1 h
    rcases List.mem_cons.1 hp with rfl | hp
    · exact choice_of_consumed hresult htag
    · obtain ⟨error, hq⟩ := (hfirst p hp).resolve_right hnot
      rw [choiceOf_cons, choice_of_returned hq (ih hrest hp), Result.reject,
        Result.failure_otherwise, Result.behind_of_consumed htag]

/-- Two alternatives at the head of a list may change places. -/
theorem choice_swap_reordered {q r : Parser σ υ α} {a b c : Result σ υ α}
    (hp : p context state = .returned a) (hq : q context state = .returned b)
    (hr : r context state = .returned c) (hpq : p.Rejects context state ∨ q.Rejects context state)
    (hpr : p.Rejects context state ∨ r.Rejects context state)
    (hqr : q.Rejects context state ∨ r.Rejects context state) :
    (a.otherwise (b.otherwise c)).Reordered (b.otherwise (a.otherwise c)) := by
  rw [rejects_iff hp, rejects_iff hq] at hpq
  rw [rejects_iff hp, rejects_iff hr] at hpr
  rw [rejects_iff hq, rejects_iff hr] at hqr
  rcases hpq with ⟨error, rfl⟩ | ⟨error, rfl⟩
  · exact Result.reject_otherwise_comm error b c hqr
  · exact (Result.reject_otherwise_comm error a c hpr).symm

/-- The order of alternatives that exclude each other: by induction on the permutation, and two that
change places are all there is to see to. -/
theorem choiceOf_perm_reordered (hperm : ps.Perm ps')
    (hreturns : ∀ p ∈ ps, ∃ result, p context state = .returned result)
    (hexclusive : Exclusive ps context state) :
    ∃ first second, choiceOf ps context state = .returned first ∧
      choiceOf ps' context state = .returned second ∧ first.Reordered second := by
  induction hperm with
  | nil => exact ⟨_, _, rfl, rfl, Result.reordered_refl _⟩
  | @cons p ps ps' _ ih =>
    obtain ⟨result, hp⟩ := hreturns p (List.mem_cons_self ..)
    obtain ⟨first, second, hfirst, hsecond, hreordered⟩ :=
      ih (fun q hq => hreturns q (List.mem_cons_of_mem p hq)) (List.pairwise_cons.1 hexclusive).2
    exact ⟨_, _, choice_of_returned hp hfirst, choice_of_returned hp hsecond,
      hreordered.otherwise result⟩
  | swap p q ps =>
    obtain ⟨b, hq⟩ := hreturns q (List.mem_cons_self ..)
    obtain ⟨a, hp⟩ := hreturns p (List.mem_cons_of_mem q (List.mem_cons_self ..))
    obtain ⟨c, hps⟩ := choiceOf_returns fun r (hr : r ∈ ps) =>
      hreturns r (List.mem_cons_of_mem q (List.mem_cons_of_mem p hr))
    obtain ⟨hfirst, hrest⟩ := List.pairwise_cons.1 hexclusive
    have hqp := hfirst p (List.mem_cons_self ..)
    have hqps := rejects_or_choiceOf fun r hr => hfirst r (List.mem_cons_of_mem p hr)
    have hpps := rejects_or_choiceOf (List.pairwise_cons.1 hrest).1
    exact ⟨_, _, choice_of_returned hq (choice_of_returned hp hps),
      choice_of_returned hp (choice_of_returned hq hps),
      choice_swap_reordered hq hp hps hqp hqps hpps⟩
  | @trans ps qs ps' hpq _ ih ih' =>
    obtain ⟨first, second, hfirst, hsecond, hreordered⟩ := ih hreturns hexclusive
    obtain ⟨second', third, hsecond', hthird, hreordered'⟩ :=
      ih' (fun p hp => hreturns p (hpq.mem_iff.2 hp)) (hexclusive.perm hpq)
    rw [hsecond] at hsecond'
    cases hsecond'
    exact ⟨first, third, hfirst, hthird, hreordered.trans hreordered'⟩

/-- Where all alternatives fail without reading input, the choices in two orders fail with one
error, up to the order of its messages. -/
theorem choiceOf_rejects_perm {P : Position → Prop} (hstart : P state.position)
    (hperm : ps.Perm ps')
    (h : ∀ p ∈ ps, ∃ error, p context state = .returned (.reject error) ∧ P error.position) :
    ∃ first second, choiceOf ps context state = .returned (.reject first) ∧
      choiceOf ps' context state = .returned (.reject second) ∧
      P first.position ∧ P second.position ∧ first.Reordered second := by
  obtain ⟨first, hfirst, hwhere⟩ := choiceOf_rejects_where hstart h
  obtain ⟨second, hsecond, hwhere'⟩ :=
    choiceOf_rejects_where hstart fun p hp => h p (hperm.mem_iff.2 hp)
  have hreturns : ∀ p ∈ ps, ∃ result, p context state = .returned result := fun p hp => by
    obtain ⟨error, herror, -⟩ := h p hp
    exact ⟨_, herror⟩
  have hexclusive : Exclusive ps context state :=
    List.pairwise_of_forall_mem_list fun p hp _ _ => Or.inl ((h p hp).imp fun _ => And.left)
  obtain ⟨result, result', hresult, hresult', hreordered⟩ :=
    choiceOf_perm_reordered hperm hreturns hexclusive
  rw [hfirst] at hresult
  rw [hsecond] at hresult'
  cases hresult
  cases hresult'
  exact ⟨first, second, hfirst, hsecond, hwhere, hwhere', hreordered.error⟩

/-- Where all alternatives return, and all but one at most fail without reading input, a choice
does the same in every order: the tag, the output and the state are the same, and what is reported
lies at the same line and column and has the same messages, up to their order. If the one that does
not fail in this way has read input, the choice has its result in every order, with all that it
reports. -/
theorem exclusive_alternatives_commute (hperm : ps.Perm ps')
    (hreturns : ∀ p ∈ ps, ∃ result, p context state = .returned result)
    (hexclusive : ps.Pairwise fun p q => p.Rejects context state ∨ q.Rejects context state) :
    ∃ first second, choiceOf ps context state = .returned first ∧
      choiceOf ps' context state = .returned second ∧
      first.tag = second.tag ∧ first.reply.value? = second.reply.value? ∧
      (∀ p ∈ ps, ∀ result, p context state = .returned result → result.tag = .consumed →
        first = result ∧ second = result) ∧
      (first.reply.error.position == second.reply.error.position) = true ∧
      first.reply.error.messages.Perm second.reply.error.messages := by
  have hpairs : Exclusive ps context state := hexclusive
  obtain ⟨first, second, hfirst, hsecond, hreordered⟩ :=
    choiceOf_perm_reordered hperm hreturns hpairs
  refine ⟨first, second, hfirst, hsecond, hreordered.tag, hreordered.value?,
    fun p hp result hresult htag => ?_, hreordered.error.position, hreordered.error.messages⟩
  have hleft := hpairs.choiceOf_eq hp hresult htag
  have hright := (hpairs.perm hperm).choiceOf_eq (hperm.mem_iff.1 hp) hresult htag
  rw [hfirst] at hleft
  rw [hsecond] at hright
  exact ⟨Outcome.returned.inj hleft, Outcome.returned.inj hright⟩

/-- Two letters that are not there, and nothing between them or behind them. The choice reports both
letters, in the order in which it has tried them. -/
theorem missing_letters_commute :
    let missing (wanted : Char) : Parser (List Char) Unit Char :=
      labels [Quoted.char wanted] (token Quoted.char (fun position c _ => position.advance c)
        fun c => if c = wanted then some c else none)
    let start : State (List Char) Unit := ⟨['a'], (), .initial "f"⟩
    let ps := [missing 'x', Parser.pure 'z', missing 'y']
    let ps' := [missing 'y', missing 'x', Parser.pure 'z']
    (ps.Perm ps' ∧ (∀ p ∈ ps, ∃ result, p (.start none) start = .returned result) ∧
      ps.Pairwise fun p q => p.Rejects (.start none) start ∨ q.Rejects (.start none) start) ∧
      choiceOf ps (.start none) start = .returned ⟨.empty, .success 'z' start
        ⟨start.position, [⟨.expected, "'x'"⟩, ⟨.expected, "'y'"⟩]⟩⟩ ∧
      ∃ hint : ParseError, choiceOf ps' (.start none) start =
          .returned ⟨.empty, .success 'z' start hint⟩ ∧
        (start.position == hint.position) = true ∧
        [(⟨.expected, "'x'"⟩ : Message), ⟨.expected, "'y'"⟩].Perm hint.messages := by
  intro missing start ps ps'
  have hx : (missing 'x').Rejects (.start none) start := ⟨_, rfl⟩
  have hy : (missing 'y').Rejects (.start none) start := ⟨_, rfl⟩
  have hperm : ps.Perm ps' := by
    have hrotate : ps' = missing 'y' :: ([missing 'x', Parser.pure 'z'] ++ []) := rfl
    have hlist : ps = [missing 'x', Parser.pure 'z'] ++ missing 'y' :: [] := rfl
    rw [hrotate, hlist]
    exact List.perm_middle
  have hreturns : ∀ p ∈ ps, ∃ result, p (.start none) start = .returned result := by
    intro p hp
    simp only [ps, List.mem_cons, List.not_mem_nil, or_false] at hp
    rcases hp with rfl | rfl | rfl
    · exact ⟨_, rfl⟩
    · exact ⟨_, rfl⟩
    · exact ⟨_, rfl⟩
  have hexclusive : ps.Pairwise fun p q =>
      p.Rejects (.start none) start ∨ q.Rejects (.start none) start := by
    refine List.pairwise_cons.2 ⟨fun _ _ => Or.inl hx,
      List.pairwise_cons.2 ⟨fun q hq => ?_, List.pairwise_singleton _ _⟩⟩
    rw [List.mem_singleton.1 hq]
    exact Or.inr hy
  obtain ⟨first, second, hfirst, hsecond, htag, hvalue, -, hposition, hmessages⟩ :=
    exclusive_alternatives_commute hperm hreturns hexclusive
  have hrun : choiceOf ps (.start none) start = .returned ⟨.empty, .success 'z' start
      ⟨start.position, [⟨.expected, "'x'"⟩, ⟨.expected, "'y'"⟩]⟩⟩ := rfl
  rw [hrun] at hfirst
  cases hfirst
  obtain ⟨tag, reply⟩ := second
  cases htag
  cases reply with
  | failure error => cases hvalue
  | success output next hint =>
    cases hvalue
    exact ⟨⟨hperm, hreturns, hexclusive⟩, hrun, hint, hsecond, hposition, hmessages⟩

end Parser

end Parsing
