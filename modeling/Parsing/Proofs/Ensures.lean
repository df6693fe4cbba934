import Parsing.Outcome

/-!
# What the value of a run satisfies

`outcome.Ensures post` speaks of the value that a run ends with and is silent about runs that stop
at a fault or use up their budget. `outcome.Both R outcome'` speaks of two runs: they end in the
same way, and if they end with values, `R` holds between these. `outcome.Follows lost F R outcome'`
is the same for runs whose faults may differ, and of which the second one may be lost to some
faults.
-/

namespace Parsing.Outcome

variable {α β γ δ : Type} {outcome : Outcome α}

/-- Every value that the run ends with satisfies `post`. -/
def Ensures (outcome : Outcome α) (post : α → Prop) : Prop :=
  ∀ value, outcome = returned value → post value

@[simp]
theorem ensures_returned {value : α} {post : α → Prop} :
    (returned value).Ensures post ↔ post value :=
  ⟨fun h => h value rfl, fun h _ heq => by cases heq; exact h⟩

@[simp]
theorem ensures_fault (f : Fault) (post : α → Prop) : (fault f).Ensures post :=
  fun _ h => by cases h

@[simp]
theorem ensures_exhausted (post : α → Prop) : (exhausted : Outcome α).Ensures post :=
  fun _ h => by cases h

theorem Ensures.mono {post post' : α → Prop} (h : outcome.Ensures post)
    (himp : ∀ value, post value → post' value) : outcome.Ensures post' :=
  fun value heq => himp value (h value heq)

theorem Ensures.bind {post : α → Prop} {post' : β → Prop} {next : α → Outcome β}
    (h : outcome.Ensures post) (hnext : ∀ value, post value → (next value).Ensures post') :
    (outcome.bind next).Ensures post' := by
  cases outcome with
  | returned value => exact hnext value (ensures_returned.1 h)
  | fault f => exact ensures_fault f post'
  | exhausted => exact ensures_exhausted post'

theorem ensures_map {post : β → Prop} {f : α → β} :
    (outcome.map f).Ensures post ↔ outcome.Ensures fun value => post (f value) := by
  cases outcome <;> simp

theorem map_eq_returned_iff {f : α → β} {value : β} :
    outcome.map f = returned value ↔ ∃ first, outcome = returned first ∧ f first = value := by
  cases outcome <;> simp

/-! ## Faults that do not occur -/

theorem map_ne_fault {e : Fault} (f : α → β) (h : outcome ≠ fault e) : outcome.map f ≠ fault e := by
  cases outcome with
  | returned value => simp
  | exhausted => simp
  | fault e' => exact fun heq => h (by cases heq; rfl)

theorem bind_ne_fault {e : Fault} {next : α → Outcome β} (h : outcome ≠ fault e)
    (hnext : ∀ value, outcome = returned value → next value ≠ fault e) :
    outcome.bind next ≠ fault e := by
  cases outcome with
  | returned value => exact hnext value rfl
  | exhausted => simp
  | fault e' => exact fun heq => h (by cases heq; rfl)

/-! ## Two runs -/

/-- Both runs end with values that are related, or at the same fault, or with nothing left of their
budgets. -/
inductive Both (R : α → β → Prop) : Outcome α → Outcome β → Prop where
  /-- Both ended with a value. -/
  | returned {a : α} {b : β} (h : R a b) : Both R (returned a) (returned b)
  /-- Both stopped at a fault. -/
  | fault (f : Fault) : Both R (fault f) (fault f)
  /-- Both used up their budgets. -/
  | exhausted : Both R exhausted exhausted

variable {R : α → β → Prop} {o : Outcome α} {o' : Outcome β}

theorem Both.trans {S : β → γ → Prop} {T : α → γ → Prop} {o'' : Outcome γ} (h : o.Both R o')
    (h' : o'.Both S o'') (hT : ∀ a b c, R a b → S b c → T a c) : o.Both T o'' := by
  cases h with
  | returned h =>
    cases h' with
    | returned h' => exact .returned (hT _ _ _ h h')
  | fault f =>
    cases h'
    exact .fault f
  | exhausted =>
    cases h'
    exact .exhausted

theorem Both.symm {S : β → α → Prop} (h : o.Both R o') (hS : ∀ a b, R a b → S b a) :
    o'.Both S o := by
  cases h with
  | returned h => exact .returned (hS _ _ h)
  | fault f => exact .fault f
  | exhausted => exact .exhausted

/-- What the values of the first run are known to satisfy, if they are related to anything. -/
theorem Both.ensures {post : α → Prop} (h : o.Both R o') (hpost : ∀ a b, R a b → post a) :
    o.Ensures post := by
  cases h with
  | returned h => exact ensures_returned.2 (hpost _ _ h)
  | fault f => exact ensures_fault f post
  | exhausted => exact ensures_exhausted post

/-- The second run is made of the first one, if its values are. -/
theorem Both.eq_map {f : α → β} (h : o.Both R o') (hf : ∀ a b, R a b → b = f a) :
    o' = o.map f := by
  cases h with
  | returned h => rw [hf _ _ h, map_returned]
  | fault f => rfl
  | exhausted => rfl

/-! ## Two runs that need not stop at the same fault -/

/-- The second run ends as the first one does, up to `R` between values and `F` between faults, or
it stops at a fault to which it may be lost, and then nothing is said of the first run. -/
inductive Follows (lost : Fault → Prop) (F : Fault → Fault → Prop) (R : α → β → Prop) :
    Outcome α → Outcome β → Prop where
  /-- Both ended with a value. -/
  | returned {a : α} {b : β} (h : R a b) : Follows lost F R (returned a) (returned b)
  /-- Both stopped at a fault. -/
  | fault {f g : Fault} (h : F f g) : Follows lost F R (fault f) (fault g)
  /-- Both used up their budgets. -/
  | exhausted : Follows lost F R exhausted exhausted
  /-- The second one was lost. -/
  | lost {o : Outcome α} {f : Fault} (h : lost f) : Follows lost F R o (fault f)

variable {lost : Fault → Prop} {F : Fault → Fault → Prop}

theorem Follows.bind {S : γ → δ → Prop} {next : α → Outcome γ} {next' : β → Outcome δ}
    (h : o.Follows lost F R o') (hnext : ∀ a b, R a b → (next a).Follows lost F S (next' b)) :
    (o.bind next).Follows lost F S (o'.bind next') := by
  cases h with
  | returned h => exact hnext _ _ h
  | fault h => exact .fault h
  | exhausted => exact .exhausted
  | lost h => exact .lost h

theorem Follows.map {S : γ → δ → Prop} {f : α → γ} {g : β → δ} (h : o.Follows lost F R o')
    (hfg : ∀ a b, R a b → S (f a) (g b)) : (o.map f).Follows lost F S (o'.map g) := by
  cases h with
  | returned h => exact .returned (hfg _ _ h)
  | fault h => exact .fault h
  | exhausted => exact .exhausted
  | lost h => exact .lost h

theorem follows_refl {R : α → α → Prop} (hF : ∀ f, F f f) (hR : ∀ a, R a a) (o : Outcome α) :
    o.Follows lost F R o := by
  cases o with
  | returned value => exact .returned (hR value)
  | fault f => exact .fault (hF f)
  | exhausted => exact .exhausted

/-- A run that is lost to no fault, and stops at the same faults, ends in the same way. -/
theorem Follows.both (h : o.Follows (fun _ => False) Eq R o') : o.Both R o' := by
  cases h with
  | returned h => exact .returned h
  | fault h =>
    cases h
    exact .fault _
  | exhausted => exact .exhausted
  | lost h => exact h.elim

end Parsing.Outcome
