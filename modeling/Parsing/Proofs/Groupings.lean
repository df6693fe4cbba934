import Parsing.Proofs.Merge

/-!
# Merging many errors

Errors of many parsers are merged two by two, as the parsers are put together. The rank of what
comes out is the largest one, so the errors that count are those with messages that lie farthest on,
or those that lie farthest on if there are no messages at all; each of them keeps all its messages.
In one order of the errors, all ways to group them merge them into the same error. In another order,
only the order of its messages and the name of the source may be other ones.
-/

namespace Parsing.ParseError

variable {a b e : ParseError} {errors : List ParseError} {r : Bool ×ₗ (Nat ×ₗ Nat)}

theorem isUnknown_eq_false_iff : e.isUnknown = false ↔ e.messages ≠ [] := by
  rw [Ne, ← isUnknown_iff, Bool.not_eq_true]

/-- One of the two errors gives a merged error its rank and its position. -/
theorem merge_from (a b : ParseError) :
    (a.rank = (a.merge b).rank ∧ a.position = (a.merge b).position) ∨
      (b.rank = (a.merge b).rank ∧ b.position = (a.merge b).position) := by
  rcases lt_trichotomy a.rank b.rank with hab | hab | hab
  · exact Or.inr (by rw [merge_of_rank_lt hab]; exact ⟨rfl, rfl⟩)
  · refine Or.inl ⟨?_, by rw [merge_of_rank_eq hab]⟩
    rw [rank_merge, ← hab, max_self]
  · exact Or.inl (by rw [merge_of_rank_gt hab]; exact ⟨rfl, rfl⟩)

/-! ## What an error says at a rank -/

/-- What an error says at the rank `r`: nothing, if that is not its rank. -/
def messagesAt (r : Bool ×ₗ (Nat ×ₗ Nat)) (e : ParseError) : List Message :=
  if e.rank = r then e.messages else []

theorem messagesAt_of_rank_lt (h : e.rank < r) : e.messagesAt r = [] :=
  if_neg h.ne

theorem messagesAt_rank (e : ParseError) : e.messagesAt e.rank = e.messages :=
  if_pos rfl

/-- Of two errors that are merged, each says at its rank what it says by itself. -/
theorem messagesAt_merge (h : (a.merge b).rank ≤ r) :
    (a.merge b).messagesAt r = a.messagesAt r ++ b.messagesAt r := by
  rcases lt_trichotomy a.rank b.rank with hab | hab | hab
  · rw [merge_of_rank_lt hab] at h ⊢
    rw [messagesAt_of_rank_lt (hab.trans_le h), List.nil_append]
  · have hrank : (a.merge b).rank = a.rank := by rw [rank_merge, ← hab, max_self]
    unfold messagesAt
    rw [hrank, ← hab]
    by_cases har : a.rank = r
    · rw [if_pos har, if_pos har, if_pos har, merge_of_rank_eq hab]
    · rw [if_neg har, if_neg har, if_neg har, List.append_nil]
  · rw [merge_of_rank_gt hab] at h ⊢
    rw [messagesAt_of_rank_lt (hab.trans_le h), List.append_nil]

/-- At the rank of an error that has messages, those are heard that have messages at its
position. -/
theorem messagesAt_of_known (h : e.isUnknown = false) (errors : List ParseError) :
    errors.flatMap (·.messagesAt e.rank) =
      (errors.filter fun other => !other.isUnknown && other.position == e.position).flatMap
        (·.messages) := by
  induction errors with
  | nil => rfl
  | cons other errors ih =>
    rw [List.flatMap_cons, ih]
    by_cases hrank : other.rank = e.rank
    · obtain ⟨hunknown, hposition⟩ := rank_eq_iff.1 hrank
      have hin : (!other.isUnknown && other.position == e.position) = true := by
        rw [hunknown, h, hposition]
        rfl
      rw [List.filter_cons, if_pos hin, List.flatMap_cons, messagesAt, if_pos hrank]
    · have hout : ¬ (!other.isUnknown && other.position == e.position) = true := by
        intro hin
        obtain ⟨hknown, hposition⟩ := Bool.and_eq_true_iff.1 hin
        have hunknown : other.isUnknown = e.isUnknown := by rw [h]; simpa using hknown
        exact hrank (rank_eq_iff.2 ⟨hunknown, hposition⟩)
      rw [List.filter_cons, if_neg hout, messagesAt, if_neg hrank, List.nil_append]

/-! ## Groupings -/

/-- A way to merge some errors two by two. -/
inductive Grouping where
  /-- An error that stands alone. -/
  | single (e : ParseError)
  /-- What comes of some errors, with what comes of others behind it. -/
  | pair (left right : Grouping)

namespace Grouping

/-- The errors that are merged, in their order. -/
def parts : Grouping → List ParseError
  | single e => [e]
  | pair left right => left.parts ++ right.parts

/-- What comes of merging them. -/
def merged : Grouping → ParseError
  | single e => e
  | pair left right => left.merged.merge right.merged

/-- Some errors, each of them merged with all that comes behind it. -/
def chain (last : ParseError) : List ParseError → Grouping
  | [] => single last
  | e :: errors => pair (single e) (chain last errors)

variable {g g' : Grouping}

theorem parts_chain (errors : List ParseError) (last : ParseError) :
    (chain last errors).parts = errors ++ [last] := by
  induction errors with
  | nil => rfl
  | cons e errors ih => rw [chain, Grouping.parts, ih]; rfl

theorem merged_chain (errors : List ParseError) (last : ParseError) :
    (chain last errors).merged = errors.foldr merge last := by
  induction errors with
  | nil => rfl
  | cons e errors ih => rw [chain, Grouping.merged, ih]; rfl

theorem exists_of_ne_nil (h : errors ≠ []) : ∃ g : Grouping, g.parts = errors :=
  ⟨chain (errors.getLast h) errors.dropLast, by rw [parts_chain, List.dropLast_concat_getLast]⟩

/-- Grouped in any way, errors are merged with what comes behind them one by one. -/
theorem merge_eq_foldr (g : Grouping) (last : ParseError) :
    g.merged.merge last = g.parts.foldr merge last := by
  induction g generalizing last with
  | single e => rfl
  | pair left right ihl ihr => rw [merged, merge_assoc, ihr, ihl, parts, List.foldr_append]

/-- The rank is the largest one. -/
theorem rank_le (h : e ∈ g.parts) : e.rank ≤ g.merged.rank := by
  induction g with
  | single e' => rw [List.mem_singleton.1 h, merged]
  | pair left right ihl ihr =>
    rw [merged, rank_merge]
    rcases List.mem_append.1 h with h | h
    · exact (ihl h).trans (le_max_left _ _)
    · exact (ihr h).trans (le_max_right _ _)

/-- One of the errors gives the rank and the position. -/
theorem merged_from (g : Grouping) :
    ∃ e ∈ g.parts, e.rank = g.merged.rank ∧ e.position = g.merged.position := by
  induction g with
  | single e => exact ⟨e, List.mem_singleton_self e, rfl, rfl⟩
  | pair left right ihl ihr =>
    obtain ⟨a, ha, harank, haposition⟩ := ihl
    obtain ⟨b, hb, hbrank, hbposition⟩ := ihr
    rcases merge_from left.merged right.merged with ⟨hrank, hposition⟩ | ⟨hrank, hposition⟩
    · exact ⟨a, List.mem_append_left _ ha, harank.trans hrank, haposition.trans hposition⟩
    · exact ⟨b, List.mem_append_right _ hb, hbrank.trans hrank, hbposition.trans hposition⟩

theorem messagesAt_merged (h : g.merged.rank ≤ r) :
    g.merged.messagesAt r = g.parts.flatMap (·.messagesAt r) := by
  induction g with
  | single e => rw [parts, List.flatMap_singleton, merged]
  | pair left right ihl ihr =>
    have hmax : max left.merged.rank right.merged.rank ≤ r := by rwa [merged, rank_merge] at h
    have hleft := ihl ((le_max_left _ _).trans hmax)
    have hright := ihr ((le_max_right _ _).trans hmax)
    rw [merged, messagesAt_merge h, hleft, hright, parts, List.flatMap_append]

/-- What is said in the end is what is said at the largest rank. -/
theorem messages_merged (g : Grouping) :
    g.merged.messages = g.parts.flatMap (·.messagesAt g.merged.rank) := by
  rw [← messagesAt_rank, messagesAt_merged le_rfl]

/-! ## The errors that count -/

theorem isUnknown_merged (g : Grouping) : g.merged.isUnknown = g.parts.all isUnknown := by
  induction g with
  | single e => simp [parts, merged]
  | pair left right ihl ihr => rw [merged, isUnknown_merge, ihl, ihr, parts, List.all_append]

theorem merged_known (h : ∃ e ∈ g.parts, e.messages ≠ []) : g.merged.isUnknown = false := by
  obtain ⟨e, he, hmessages⟩ := h
  rw [isUnknown_merged]
  exact List.all_eq_false.2 ⟨e, he, fun hunknown => hmessages (isUnknown_iff.1 hunknown)⟩

theorem position_le_merged (h : e ∈ g.parts) (hmessages : e.messages ≠ []) :
    e.position ≤ g.merged.position := by
  rcases rank_le_iff.1 (rank_le h) with ⟨hunknown, -⟩ | ⟨-, hle⟩
  · exact absurd (isUnknown_iff.1 hunknown) hmessages
  · exact hle

theorem exists_position_merged (h : g.merged.isUnknown = false) :
    ∃ e ∈ g.parts, e.messages ≠ [] ∧ e.position = g.merged.position := by
  obtain ⟨e, he, hrank, hposition⟩ := g.merged_from
  have hknown : e.isUnknown = false := (rank_eq_iff.1 hrank).1.trans h
  exact ⟨e, he, isUnknown_eq_false_iff.1 hknown, hposition⟩

theorem messages_of_known (h : g.merged.isUnknown = false) :
    g.merged.messages =
      (g.parts.filter fun e => !e.isUnknown && e.position == g.merged.position).flatMap
        (·.messages) := by
  rw [messages_merged, messagesAt_of_known h]

/-! ## Another order -/

theorem merged_eq_foldr (g : Grouping) :
    ∃ init last, g.parts = init ++ [last] ∧ g.merged = init.foldr merge last := by
  induction g with
  | single e => exact ⟨[], e, rfl, rfl⟩
  | pair left right _ ihr =>
    obtain ⟨init, last, hparts, hmerged⟩ := ihr
    refine ⟨left.parts ++ init, last, ?_, ?_⟩
    · rw [parts, hparts, List.append_assoc]
    · rw [merged, merge_eq_foldr, hmerged, List.foldr_append]

/-- All groupings of the same errors in the same order come to the same. -/
theorem merged_eq (h : g.parts = g'.parts) : g.merged = g'.merged := by
  obtain ⟨init, last, hparts, hmerged⟩ := g.merged_eq_foldr
  obtain ⟨init', last', hparts', hmerged'⟩ := g'.merged_eq_foldr
  have hsame : init ++ [last] = init' ++ [last'] := by rw [← hparts, ← hparts', h]
  obtain ⟨rfl, hlast⟩ := List.append_inj' hsame rfl
  cases hlast
  rw [hmerged, hmerged']

theorem rank_eq_of_perm (h : g.parts.Perm g'.parts) : g.merged.rank = g'.merged.rank := by
  obtain ⟨e, he, hrank, -⟩ := g.merged_from
  obtain ⟨e', he', hrank', -⟩ := g'.merged_from
  refine le_antisymm ?_ ?_
  · rw [← hrank]
    exact rank_le (h.mem_iff.1 he)
  · rw [← hrank']
    exact rank_le (h.mem_iff.2 he')

theorem reordered_of_perm (h : g.parts.Perm g'.parts) : g.merged.Reordered g'.merged := by
  have hrank := rank_eq_of_perm h
  refine ⟨(rank_eq_iff.1 hrank).2, ?_⟩
  rw [messages_merged, messages_merged, hrank]
  exact h.flatMap_right _

end Grouping

/-- Merging is associative with everything that an error holds, and its order shows in the order of
the messages and the name of the source only. So all groupings of some errors in one order come to
the same error, and in every order to one at the same line and column with the same messages. If any
of the errors has messages, that is where the farthest of these lie, and what all say that lie
there, each of them once; if none has, there are no messages, and it is where the farthest of all
lie. -/
theorem groupings_keep_farthest :
    (∀ a b c : ParseError, (a.merge b).merge c = a.merge (b.merge c)) ∧
    (∀ a b : ParseError, (a.merge b).Reordered (b.merge a)) ∧
    (∀ errors : List ParseError, errors ≠ [] → ∃ g : Grouping, g.parts = errors) ∧
    (∀ g g' : Grouping, g.parts = g'.parts → g.merged = g'.merged) ∧
    ∀ (errors : List ParseError) (g : Grouping), g.parts.Perm errors →
      (∀ g' : Grouping, g'.parts.Perm errors → g.merged.Reordered g'.merged) ∧
      ((∃ e ∈ errors, e.messages ≠ []) →
        (∃ e ∈ errors, e.messages ≠ [] ∧ e.position = g.merged.position) ∧
        (∀ e ∈ errors, e.messages ≠ [] → e.position ≤ g.merged.position) ∧
        g.merged.messages.Perm
          ((errors.filter fun e => !e.isUnknown && e.position == g.merged.position).flatMap
            (·.messages))) ∧
      ((∀ e ∈ errors, e.messages = []) → g.merged.messages = [] ∧
        (∃ e ∈ errors, e.position = g.merged.position) ∧
        ∀ e ∈ errors, e.position ≤ g.merged.position) := by
  refine ⟨merge_assoc, merge_comm_reordered, fun errors => Grouping.exists_of_ne_nil,
    fun g g' => Grouping.merged_eq, fun errors g hperm => ⟨fun g' hperm' => ?_, fun hsome => ?_,
    fun hnone => ?_⟩⟩
  · exact Grouping.reordered_of_perm (hperm.trans hperm'.symm)
  · obtain ⟨e, he, hmessages⟩ := hsome
    have hknown := Grouping.merged_known ⟨e, hperm.mem_iff.2 he, hmessages⟩
    refine ⟨?_, fun e he hmessages => ?_, ?_⟩
    · obtain ⟨e, he, hfarthest⟩ := Grouping.exists_position_merged hknown
      exact ⟨e, hperm.mem_iff.1 he, hfarthest⟩
    · exact Grouping.position_le_merged (hperm.mem_iff.2 he) hmessages
    · rw [Grouping.messages_of_known hknown]
      exact (hperm.filter _).flatMap_right _
  · have hunknown : g.merged.isUnknown = true := by
      rw [Grouping.isUnknown_merged, List.all_eq_true]
      exact fun e he => isUnknown_iff.2 (hnone e (hperm.mem_iff.1 he))
    refine ⟨isUnknown_iff.1 hunknown, ?_, fun e he => ?_⟩
    · obtain ⟨e, he, -, hposition⟩ := g.merged_from
      exact ⟨e, hperm.mem_iff.1 he, hposition⟩
    · exact position_le_of_isUnknown (Grouping.rank_le (hperm.mem_iff.2 he)) hunknown

/-- Two of four errors count: a nearer one has messages as well, and the farthest one has none. -/
theorem two_of_four_counted :
    let far : Position := ⟨"f", .first, ⟨4, by decide, by decide⟩⟩
    let digit : ParseError := .single ⟨.expected, "digit"⟩ far
    let letter : ParseError := .single ⟨.unexpected, "letter"⟩ far
    let near : ParseError := .single ⟨.plain, "near"⟩ (.initial "f")
    let silent : ParseError := .unknown ⟨"f", .first, ⟨9, by decide, by decide⟩⟩
    let errors := [digit, silent, near, letter]
    let halves : Grouping := .pair (.pair (.single digit) (.single silent))
      (.pair (.single near) (.single letter))
    let backwards : Grouping := .chain digit [letter, near, silent]
    (halves.parts.Perm errors ∧ backwards.parts.Perm errors ∧ (∃ e ∈ errors, e.messages ≠ [])) ∧
      halves.merged.Reordered backwards.merged ∧
      halves.merged.messages.Perm [⟨.expected, "digit"⟩, ⟨.unexpected, "letter"⟩] := by
  intro far digit letter near silent errors halves backwards
  have hhalves : halves.parts.Perm errors := .refl _
  have hbackwards : backwards.parts.Perm errors := by
    have hreverse : backwards.parts = errors.reverse := rfl
    rw [hreverse]
    exact errors.reverse_perm
  have hsome : ∃ e ∈ errors, e.messages ≠ [] := ⟨digit, List.mem_cons_self .., List.cons_ne_nil _ _⟩
  obtain ⟨-, -, -, -, hall⟩ := groupings_keep_farthest
  obtain ⟨hreordered, hknown, -⟩ := hall errors halves hhalves
  exact ⟨⟨hhalves, hbackwards, hsome⟩, hreordered backwards hbackwards, (hknown hsome).2.2⟩

end Parsing.ParseError
