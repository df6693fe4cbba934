import Mathlib.Data.Prod.Lex
import Mathlib.Order.MinMax
import Parsing.ParseError.Basic
import Parsing.Proofs.Advance

/-!
# Merging errors

Two errors are merged by rank: an error with messages ranks above one without, and errors that agree
in this rank by line and column. The error of the higher rank is kept, and errors of the same rank
are put together, the first one first. So the rank of a merged error is a maximum, and merging is
associative with everything that an error holds.

An error without messages changes nothing, as long as it does not lie further on than an error of
its kind that it is merged with. The order of merging shows in the order of the messages and in the
name of the source, and in nothing else.
-/

namespace Parsing.ParseError

/-- What decides which of two errors is kept. -/
def rank (e : ParseError) : Bool ×ₗ (Nat ×ₗ Nat) :=
  toLex (!e.isUnknown, toLex (e.position.line.val, e.position.column.val))

variable {a b c e : ParseError} {p : Position}

theorem rank_lt_iff : a.rank < b.rank ↔
    (a.isUnknown = true ∧ b.isUnknown = false) ∨
      (a.isUnknown = b.isUnknown ∧ a.position < b.position) := by
  rw [rank, rank, Prod.Lex.toLex_lt_toLex, Prod.Lex.toLex_lt_toLex, Position.lt_iff]
  cases a.isUnknown <;> cases b.isUnknown <;> simp

theorem rank_eq_iff : a.rank = b.rank ↔
    a.isUnknown = b.isUnknown ∧ (a.position == b.position) = true := by
  rw [rank, rank, Position.beq_iff]
  cases a.isUnknown <;> cases b.isUnknown <;> simp

theorem rank_le_iff : a.rank ≤ b.rank ↔
    (a.isUnknown = true ∧ b.isUnknown = false) ∨
      (a.isUnknown = b.isUnknown ∧ a.position ≤ b.position) := by
  rw [le_iff_lt_or_eq, rank_lt_iff, rank_eq_iff, Position.le_iff_lt_or_beq]
  tauto

/-! ## Merging by rank -/

theorem merge_of_rank_lt (h : a.rank < b.rank) : a.merge b = b := by
  rcases rank_lt_iff.1 h with ⟨ha, hb⟩ | ⟨hab, hp⟩
  · simp [merge, ha, hb]
  · have hc := Position.compare_eq_lt.2 hp
    simp [merge, hab, hc]

theorem merge_of_rank_gt (h : b.rank < a.rank) : a.merge b = a := by
  rcases rank_lt_iff.1 h with ⟨hb, ha⟩ | ⟨hab, hp⟩
  · simp [merge, ha, hb]
  · have hc := Position.compare_eq_gt.2 hp
    simp [merge, hab, hc]

theorem merge_of_rank_eq (h : a.rank = b.rank) :
    a.merge b = ⟨a.position, a.messages ++ b.messages⟩ := by
  obtain ⟨hab, hp⟩ := rank_eq_iff.1 h
  have hc := Position.compare_eq_eq.2 hp
  simp [merge, hab, hc]

/-- Whatever is kept lies where one of the two errors lies, with the name that it has there. -/
theorem position_merge (a b : ParseError) :
    (a.merge b).position = a.position ∨ (a.merge b).position = b.position := by
  rcases lt_trichotomy a.rank b.rank with h | h | h
  · exact Or.inr (by rw [merge_of_rank_lt h])
  · exact Or.inl (by rw [merge_of_rank_eq h])
  · exact Or.inl (by rw [merge_of_rank_gt h])

theorem rank_merge (a b : ParseError) : (a.merge b).rank = max a.rank b.rank := by
  rcases lt_trichotomy a.rank b.rank with h | h | h
  · rw [merge_of_rank_lt h, max_eq_right h.le]
  · rw [merge_of_rank_eq h, ← h, max_self, rank_eq_iff]
    obtain ⟨hab, -⟩ := rank_eq_iff.1 h
    have hu : (⟨a.position, a.messages ++ b.messages⟩ : ParseError).isUnknown = a.isUnknown := by
      rw [Bool.eq_iff_iff, isUnknown_iff, isUnknown_iff] at hab ⊢
      simp [hab]
    exact ⟨hu, Position.beq_iff.2 ⟨rfl, rfl⟩⟩
  · rw [merge_of_rank_gt h, max_eq_left h.le]

/-- Merging is associative: the ranks decide alike in both groupings, and what has the same rank is
put together in the same order. -/
theorem merge_assoc (a b c : ParseError) : (a.merge b).merge c = a.merge (b.merge c) := by
  rcases lt_trichotomy a.rank b.rank with hab | hab | hab <;>
    rcases lt_trichotomy b.rank c.rank with hbc | hbc | hbc
  · rw [merge_of_rank_lt hab, merge_of_rank_lt hbc, merge_of_rank_lt (hab.trans hbc)]
  · have h : a.rank < (b.merge c).rank := by rw [rank_merge, ← hbc, max_self]; exact hab
    rw [merge_of_rank_lt hab, merge_of_rank_lt h]
  · rw [merge_of_rank_gt hbc, merge_of_rank_lt hab, merge_of_rank_gt hbc]
  · have h : (a.merge b).rank < c.rank := by rw [rank_merge, hab, max_self]; exact hbc
    rw [merge_of_rank_lt h, merge_of_rank_lt hbc, merge_of_rank_lt (hab ▸ hbc)]
  · have h₁ : (a.merge b).rank = c.rank := by rw [rank_merge, hab, max_self, hbc]
    have h₂ : a.rank = (b.merge c).rank := by rw [rank_merge, ← hbc, max_self, hab]
    rw [merge_of_rank_eq h₁, merge_of_rank_eq h₂, merge_of_rank_eq hab, merge_of_rank_eq hbc]
    simp only [List.append_assoc]
  · have h : c.rank < (a.merge b).rank := by rw [rank_merge, hab, max_self]; exact hbc
    rw [merge_of_rank_gt h, merge_of_rank_gt hbc]
  · rw [merge_of_rank_gt hab, merge_of_rank_lt hbc]
  · have h : (b.merge c).rank < a.rank := by rw [rank_merge, ← hbc, max_self]; exact hab
    rw [merge_of_rank_gt hab, merge_of_rank_gt h, merge_of_rank_gt (hbc ▸ hab)]
  · rw [merge_of_rank_gt hab, merge_of_rank_gt (hbc.trans hab), merge_of_rank_gt hbc,
      merge_of_rank_gt hab]

/-! ## Errors without messages -/

/-- No messages are lost altogether. -/
theorem isUnknown_merge (a b : ParseError) :
    (a.merge b).isUnknown = (a.isUnknown && b.isUnknown) := by
  rcases lt_trichotomy a.rank b.rank with h | h | h
  · rw [merge_of_rank_lt h]
    rcases rank_lt_iff.1 h with ⟨ha, hb⟩ | ⟨hab, -⟩
    · rw [ha, hb, Bool.and_false]
    · rw [hab, Bool.and_self]
  · rw [merge_of_rank_eq h, Bool.eq_iff_iff, Bool.and_eq_true]
    simp only [isUnknown_iff, List.append_eq_nil_iff]
  · rw [merge_of_rank_gt h]
    rcases rank_lt_iff.1 h with ⟨hb, ha⟩ | ⟨hab, -⟩
    · rw [ha, hb, Bool.false_and]
    · rw [hab, Bool.and_self]

/-- What ranks no higher than an error without messages lies no further on. -/
theorem position_le_of_isUnknown (h : a.rank ≤ b.rank) (hb : b.isUnknown = true) :
    a.position ≤ b.position := by
  rcases rank_le_iff.1 h with ⟨-, hknown⟩ | ⟨-, hle⟩
  · rw [hb] at hknown
    cases hknown
  · exact hle

theorem position_le_merge_left (h : (a.merge b).isUnknown = true) :
    a.position ≤ (a.merge b).position :=
  position_le_of_isUnknown (rank_merge a b ▸ le_max_left _ _) h

theorem position_le_merge_right (h : (a.merge b).isUnknown = true) :
    b.position ≤ (a.merge b).position :=
  position_le_of_isUnknown (rank_merge a b ▸ le_max_right _ _) h

/-- Two errors at or past a position merge into one at or past it. -/
theorem le_position_merge (ha : p ≤ a.position) (hb : p ≤ b.position) :
    p ≤ (a.merge b).position := by
  rcases position_merge a b with h | h
  · rwa [h]
  · rwa [h]

theorem rank_unknown_le (h : e.isUnknown = true → p ≤ e.position) :
    (unknown p).rank ≤ e.rank := by
  rw [rank_le_iff, isUnknown_unknown]
  cases he : e.isUnknown with
  | false => exact Or.inl ⟨rfl, rfl⟩
  | true => exact Or.inr ⟨rfl, h he⟩

theorem merge_unknown (h : e.isUnknown = true → p ≤ e.position) : e.merge (unknown p) = e := by
  rcases (rank_unknown_le h).lt_or_eq with hlt | heq
  · exact merge_of_rank_gt hlt
  · rw [merge_of_rank_eq heq.symm]
    simp [unknown]

theorem beq_iff : (a == b) = true ↔
    (a.position == b.position) = true ∧ a.messages = b.messages := by
  have hbeq : (a == b) = (a.position == b.position && a.messages == b.messages) := by
    cases a; cases b; rfl
  rw [hbeq, Bool.and_eq_true, @beq_iff_eq _ _ _ a.messages]

theorem beq_self (e : ParseError) : (e == e) = true :=
  beq_iff.2 ⟨Position.beq_iff.2 ⟨rfl, rfl⟩, rfl⟩

theorem unknown_merge_beq (h : p ≤ e.position) : ((unknown p).merge e == e) = true := by
  rcases (rank_unknown_le fun _ => h).lt_or_eq with hlt | heq
  · rw [merge_of_rank_lt hlt]
    exact beq_self e
  · obtain ⟨-, hposition⟩ := rank_eq_iff.1 heq
    rw [merge_of_rank_eq heq]
    exact beq_iff.2 ⟨hposition, rfl⟩

/-! ## Up to the order of messages -/

/-- The errors lie at the same line and column and have the same messages, in whatever order. -/
structure Reordered (a b : ParseError) : Prop where
  /-- The name of the source is not compared. -/
  position : (a.position == b.position) = true
  messages : a.messages.Perm b.messages

theorem reordered_refl (e : ParseError) : e.Reordered e :=
  ⟨Position.beq_iff.2 ⟨rfl, rfl⟩, .refl _⟩

theorem Reordered.symm (h : a.Reordered b) : b.Reordered a := by
  obtain ⟨hline, hcolumn⟩ := Position.beq_iff.1 h.position
  exact ⟨Position.beq_iff.2 ⟨hline.symm, hcolumn.symm⟩, h.messages.symm⟩

theorem Reordered.trans (h : a.Reordered b) (h' : b.Reordered c) : a.Reordered c := by
  obtain ⟨hline, hcolumn⟩ := Position.beq_iff.1 h.position
  obtain ⟨hline', hcolumn'⟩ := Position.beq_iff.1 h'.position
  exact ⟨Position.beq_iff.2 ⟨hline.trans hline', hcolumn.trans hcolumn'⟩,
    h.messages.trans h'.messages⟩

/-- In one source, errors at the same line and column are at the same position. -/
theorem Reordered.position_eq (h : a.Reordered b) (hname : a.position.name = b.position.name) :
    a.position = b.position := by
  obtain ⟨hline, hcolumn⟩ := Position.beq_iff.1 h.position
  obtain ⟨⟨name, line, column⟩, _⟩ := a
  cases hname
  cases Coordinate.ext_val hline
  cases Coordinate.ext_val hcolumn
  rfl

theorem Reordered.rank_eq (h : a.Reordered b) : a.rank = b.rank := by
  refine rank_eq_iff.2 ⟨?_, h.position⟩
  rw [Bool.eq_iff_iff, isUnknown_iff, isUnknown_iff]
  exact ⟨fun hnil => (hnil ▸ h.messages).nil_eq.symm, fun hnil => (hnil ▸ h.messages).eq_nil⟩

theorem Reordered.merge {a' b' : ParseError} (ha : a.Reordered a') (hb : b.Reordered b') :
    (a.merge b).Reordered (a'.merge b') := by
  have hrank := ha.rank_eq
  have hrank' := hb.rank_eq
  rcases lt_trichotomy a.rank b.rank with h | h | h
  · rw [merge_of_rank_lt h, merge_of_rank_lt (hrank ▸ hrank' ▸ h)]
    exact hb
  · rw [merge_of_rank_eq h, merge_of_rank_eq (hrank ▸ hrank' ▸ h)]
    exact ⟨ha.position, ha.messages.append hb.messages⟩
  · rw [merge_of_rank_gt h, merge_of_rank_gt (hrank ▸ hrank' ▸ h)]
    exact ha

theorem merge_comm_reordered (a b : ParseError) : (a.merge b).Reordered (b.merge a) := by
  rcases lt_trichotomy a.rank b.rank with h | h | h
  · rw [merge_of_rank_lt h, merge_of_rank_gt h]
    exact reordered_refl b
  · rw [merge_of_rank_eq h, merge_of_rank_eq h.symm]
    exact ⟨(rank_eq_iff.1 h).2, List.perm_append_comm⟩
  · rw [merge_of_rank_gt h, merge_of_rank_lt h]
    exact reordered_refl a

theorem merge_left_comm_reordered (a b c : ParseError) :
    (a.merge (b.merge c)).Reordered (b.merge (a.merge c)) := by
  rw [← merge_assoc, ← merge_assoc]
  exact (merge_comm_reordered a b).merge (reordered_refl c)

end Parsing.ParseError
