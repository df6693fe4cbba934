import Parsing.Proofs.Ensures
import Parsing.Proofs.Everywhere

/-!
# Two runs in step

A statement about two runs compares what they return: the states are related in one way, and the
errors in another. A `Link` names the two relations. Parsers are linked if from linked states they
end in the same way, with the same tag and output; the ways of putting parsers together keep that,
for every link whose errors can be merged and relabeled side by side.

What the runs read is not spoken of here, so a link may be between different kinds of inputs, and
also between different user values. The runs need not be at the same place either. Where they are
not, a fault that names a position is another one in each run, and a run that is further on may be
lost to a fault that the other one does not meet.
-/

namespace Parsing

/-- How the states, the errors and the faults of two runs correspond. -/
structure Link (σ υ σ' υ' : Type) where
  /-- The states that correspond. -/
  state : State σ υ → State σ' υ' → Prop
  /-- The errors that correspond. -/
  error : ParseError → ParseError → Prop
  /-- The faults that correspond. -/
  fault : Fault → Fault → Prop := Eq
  /-- The faults at which the second run may stop whatever the first one does. -/
  lost : Fault → Prop := fun _ => False
  /-- The same messages correspond, if each run reports them where it is. -/
  report {s : State σ υ} {t : State σ' υ'} (messages : List Message) :
    state s t → error ⟨s.position, messages⟩ ⟨t.position, messages⟩
  /-- Corresponding errors may be merged. -/
  merge {a a' b b' : ParseError} : error a a' → error b b' → error (a.merge b) (a'.merge b')
  /-- Corresponding errors may be relabeled. -/
  relabel {a a' : ParseError} (names : List String) :
    error a a' → error (a.relabel names) (a'.relabel names)
  /-- The faults of a repetition correspond, if each run stops where it is. -/
  repetition {s : State σ υ} {t : State σ' υ'} :
    state s t → fault (.emptyRepetition s.position) (.emptyRepetition t.position)
  /-- A level that is out of range is so in both runs. -/
  level : fault .levelOverflow .levelOverflow := by rfl

variable {σ υ σ' υ' α β : Type} {L : Link σ υ σ' υ'}

/-- Runs that are always at the same place, and report the same. -/
def Link.atOnePlace (state : State σ υ → State σ' υ' → Prop)
    (hposition : ∀ {s t}, state s t → s.position = t.position) : Link σ υ σ' υ' where
  state := state
  error e e' := e = e'
  report _ h := by rw [hposition h]
  merge ha hb := by rw [ha, hb]
  relabel _ h := by rw [h]
  repetition h := congrArg Fault.emptyRepetition (hposition h)

/-! ## Results -/

/-- Results of the same shape, with the same tag and output. -/
inductive Result.Linked (L : Link σ υ σ' υ') : Result σ υ α → Result σ' υ' α → Prop where
  /-- Both are successes. -/
  | success {tag : Tag} {output : α} {s : State σ υ} {t : State σ' υ'} {hint hint' : ParseError}
      (hstate : L.state s t) (hhint : L.error hint hint') :
      Linked L ⟨tag, .success output s hint⟩ ⟨tag, .success output t hint'⟩
  /-- Both are failures. -/
  | failure {tag : Tag} {error error' : ParseError} (herror : L.error error error') :
      Linked L ⟨tag, .failure error⟩ ⟨tag, .failure error'⟩

namespace Result

variable {s : State σ υ} {t : State σ' υ'} {result : Result σ υ α} {result' : Result σ' υ' α}

theorem Linked.tag (h : result.Linked L result') : result.tag = result'.tag := by
  cases h <;> rfl

theorem Linked.error (h : result.Linked L result') :
    L.error result.reply.error result'.reply.error := by
  cases h with
  | success _ hhint => exact hhint
  | failure herror => exact herror

theorem linked_accept (output : α) (h : L.state s t) :
    (accept output s).Linked L (accept output t) :=
  .success h (L.report [] h)

theorem linked_reject {error error' : ParseError} (h : L.error error error') :
    (reject error : Result σ υ α).Linked L (reject error') :=
  .failure h

theorem Linked.map (f : α → β) (h : result.Linked L result') :
    (result.map f).Linked L (result'.map f) := by
  cases h with
  | success hstate hhint => exact .success hstate hhint
  | failure herror => exact .failure herror

theorem Linked.behind (tag : Tag) {earlier earlier' : ParseError}
    (hearlier : L.error earlier earlier') (h : result.Linked L result') :
    (behind tag earlier result).Linked L (behind tag earlier' result') := by
  cases h with
  | @success tag' _ _ _ _ _ hstate hhint =>
    cases tag' with
    | empty => exact .success hstate (L.merge hearlier hhint)
    | consumed => exact .success hstate hhint
  | @failure tag' _ _ herror =>
    cases tag' with
    | empty => exact .failure (L.merge hearlier herror)
    | consumed => exact .failure herror

theorem Linked.andThen {next : α → State σ υ → Outcome (Result σ υ β)}
    {next' : α → State σ' υ' → Outcome (Result σ' υ' β)} (h : result.Linked L result')
    (hnext : ∀ output s t, L.state s t →
      (next output s).Follows L.lost L.fault (Linked L) (next' output t)) :
    (result.andThen next).Follows L.lost L.fault (Linked L) (result'.andThen next') := by
  cases h with
  | @success tag output s t _ _ hstate hhint =>
    exact (hnext output s t hstate).map fun _ _ hlast => hlast.behind tag hhint
  | failure herror => exact .returned (.failure herror)

/-- After an empty success the second run is there for its error only, but the two second runs still
have to end in the same way. -/
theorem Linked.orElse {second : Unit → Outcome (Result σ υ α)}
    {second' : Unit → Outcome (Result σ' υ' α)} (h : result.Linked L result')
    (hsecond : (second ()).Follows L.lost L.fault (Linked L) (second' ())) :
    (result.orElse second).Follows L.lost L.fault (Linked L) (result'.orElse second') := by
  cases h with
  | @success tag _ _ _ _ _ hstate hhint =>
    cases tag with
    | empty =>
      refine hsecond.map fun other other' hother => ?_
      simp only [hother.tag]
      cases other'.tag with
      | empty => exact .success hstate (L.merge hhint hother.error)
      | consumed => exact .success hstate hhint
    | consumed => exact .returned (.success hstate hhint)
  | @failure tag _ _ herror =>
    cases tag with
    | empty => exact hsecond.map fun _ _ hother => hother.behind .empty herror
    | consumed => exact .returned (.failure herror)

theorem Linked.labeled (names : List String) (h : result.Linked L result') :
    (result.labeled names).Linked L (result'.labeled names) := by
  cases h with
  | @success tag _ _ _ _ _ hstate hhint =>
    cases tag with
    | empty => exact .success hstate (L.relabel names hhint)
    | consumed => exact .success hstate hhint
  | @failure tag _ _ herror =>
    cases tag with
    | empty => exact .failure (L.relabel names herror)
    | consumed => exact .failure herror

theorem Linked.rewound (h : result.Linked L result') : result.rewound.Linked L result'.rewound := by
  cases h with
  | @success tag _ _ _ _ _ hstate hhint => cases tag <;> exact .success hstate hhint
  | @failure tag _ _ herror => cases tag <;> exact .failure herror

end Result

/-! ## Parsers -/

/-- From linked states the parsers end in the same way, with linked results, or the second one is
lost. -/
def Parser.Linked (L : Link σ υ σ' υ') (p : Parser σ υ α) (q : Parser σ' υ' α) : Prop :=
  ∀ (context : Context) ⦃s : State σ υ⦄ ⦃t : State σ' υ'⦄, L.state s t →
    (p context s).Follows L.lost L.fault (Result.Linked L) (q context t)

namespace Parser

variable {p p₂ : Parser σ υ α} {q q₂ : Parser σ' υ' α}

theorem linked_pure (output : α) : Linked L (Parser.pure output) (Parser.pure output) :=
  fun _ _ _ h => .returned (Result.linked_accept output h)

theorem linked_failWith {message message' : Message}
    (hmessage : ∀ {s t}, L.state s t →
      L.error (.single message s.position) (.single message' t.position)) :
    Linked L (failWith message : Parser σ υ α) (failWith message') :=
  fun _ _ _ h => .returned (Result.linked_reject (hmessage h))

theorem linked_zero : Linked L (zero : Parser σ υ α) zero :=
  fun _ _ _ h => .returned (Result.linked_reject (L.report [] h))

/-- What is found out about linked states is the same. -/
theorem linked_inspect {f : State σ υ → α} {g : State σ' υ' → α}
    (h : ∀ {s t}, L.state s t → f s = g t) :
    Linked L (fun _ s => .returned (.accept (f s) s)) fun _ t => .returned (.accept (g t) t) := by
  intro context s t hst
  simp only [h hst]
  exact .returned (Result.linked_accept (g t) hst)

theorem linked_modifyUser {f : υ → υ} {g : υ' → υ'}
    (h : ∀ {s t}, L.state s t →
      L.state { s with user := f s.user } { t with user := g t.user }) :
    Linked L (modifyUser f) (modifyUser g) :=
  fun _ _ _ hst => .returned (Result.linked_accept () (h hst))

theorem linked_exhausted : Linked L (exhausted : Parser σ υ α) exhausted :=
  fun _ _ _ _ => .exhausted

theorem Linked.map (f : α → β) (h : Linked L p q) : Linked L (Parser.map f p) (Parser.map f q) :=
  fun context _ _ hst => (h context hst).map fun _ _ hresult => hresult.map f

theorem Linked.bind {f : α → Parser σ υ β} {g : α → Parser σ' υ' β} (h : Linked L p q)
    (hf : ∀ output, Linked L (f output) (g output)) :
    Linked L (Parser.bind p f) (Parser.bind q g) := by
  intro context s t hst
  refine (h context hst).bind fun first first' hfirst => ?_
  exact hfirst.andThen fun output s' t' hnext => hf output context hnext

theorem Linked.discardLeft {p₂ : Parser σ υ β} {q₂ : Parser σ' υ' β} (h : Linked L p q)
    (h₂ : Linked L p₂ q₂) : Linked L (Parser.discardLeft p p₂) (Parser.discardLeft q q₂) :=
  h.bind fun _ => h₂

theorem Linked.choice (h : Linked L p q) (h₂ : Linked L p₂ q₂) :
    Linked L (Parser.choice p p₂) (Parser.choice q q₂) := by
  intro context s t hst
  refine (h context hst).bind fun first first' hfirst => ?_
  exact hfirst.orElse (h₂ context hst)

theorem linked_choiceOf_ofFn {count : Nat} {f : Fin count → Parser σ υ α}
    {g : Fin count → Parser σ' υ' α} (h : ∀ i, Linked L (f i) (g i)) :
    Linked L (choiceOf (List.ofFn f)) (choiceOf (List.ofFn g)) := by
  induction count with
  | zero => exact linked_zero
  | succ count ih =>
    rw [List.ofFn_succ, List.ofFn_succ, choiceOf_cons, choiceOf_cons]
    exact (h 0).choice (ih fun i => h i.succ)

theorem Linked.optional (h : Linked L p q) : Linked L (Parser.optional p) (Parser.optional q) := by
  rw [optional_eq_choice, optional_eq_choice]
  exact (h.map _).choice (linked_pure ())

theorem Linked.labels (names : List String) (h : Linked L p q) :
    Linked L (Parser.labels names p) (Parser.labels names q) :=
  fun context _ _ hst => (h context hst).map fun _ _ hresult => hresult.labeled names

theorem Linked.attempt (h : Linked L p q) : Linked L (Parser.attempt p) (Parser.attempt q) :=
  fun context _ _ hst => (h context hst).map fun _ _ hresult => hresult.rewound

theorem Linked.lookAhead (h : Linked L p q) :
    Linked L (Parser.lookAhead p) (Parser.lookAhead q) := by
  intro context s t hst
  refine (h context hst).map fun result result' hresult => ?_
  cases hresult with
  | success => exact Result.linked_accept _ hst
  | failure herror => exact .failure herror

theorem Linked.notFollowedBy {shown shown' : α → String}
    (hshown : ∀ output {s t}, L.state s t → L.error (.single ⟨.unexpected, shown output⟩ s.position)
      (.single ⟨.unexpected, shown' output⟩ t.position)) (h : Linked L p q) :
    Linked L (Parser.notFollowedBy shown p) (Parser.notFollowedBy shown' q) := by
  intro context s t hst
  refine (h context hst).map fun result result' hresult => ?_
  cases hresult with
  | @success _ output => exact Result.linked_reject (hshown output hst)
  | failure => exact Result.linked_accept () hst

/-- Both runs are refused at the same level, or both go on in the same deeper context. -/
theorem Linked.nested (h : Linked L p q) : Linked L (Parser.nested p) (Parser.nested q) := by
  intro context s t hst
  unfold Parser.nested Context.nest
  split
  · exact .returned (Result.linked_reject (L.report [⟨.plain, "exceeded nest level"⟩] hst))
  · split
    · exact h _ hst
    · exact .fault L.level

/-! ## Repetitions -/

/-- The repetitions take their turns side by side: after each of them the collected outputs are the
same, and the last hints correspond. -/
theorem accumulate_linked {push : β → α → β} (h : Linked L p q) (context : Context) (turns : Nat)
    {acc : β} {hint hint' : Option ParseError} {s : State σ υ} {t : State σ' υ'}
    (hhint : Option.Rel L.error hint hint') (hst : L.state s t) :
    (accumulate push p context turns acc hint s).Follows L.lost L.fault (Result.Linked L)
      (accumulate push q context turns acc hint' t) := by
  induction turns generalizing acc hint hint' s t with
  | zero => exact .exhausted
  | succ turns ih =>
    have hbody := h context hst
    rw [accumulate, accumulate]
    generalize p context s = o, q context t = o' at hbody
    cases hbody with
    | fault hfault => exact .fault hfault
    | exhausted => exact .exhausted
    | lost hlost => exact .lost hlost
    | returned hresult =>
      cases hresult with
      | @success tag output _ _ _ _ hnext hlast =>
        cases tag with
        | empty => exact .fault (L.repetition hst)
        | consumed => exact ih (.some hlast) hnext
      | @failure tag _ _ herror =>
        cases tag with
        | empty =>
          cases hhint with
          | none => exact .returned (.success hst herror)
          | some hlast => exact .returned (.success hst (L.merge hlast herror))
        | consumed => exact .returned (.failure herror)

theorem Linked.repetition {turns : σ → Nat} {turns' : σ' → Nat}
    (hturns : ∀ {s t}, L.state s t → turns s.input = turns' t.input) (push : β → α → β) (acc : β)
    (h : Linked L p q) :
    Linked L (Parser.repetition turns push acc p) (Parser.repetition turns' push acc q) := by
  intro context s t hst
  unfold Parser.repetition
  rw [hturns hst]
  exact accumulate_linked h context _ .none hst

theorem Linked.many {turns : σ → Nat} {turns' : σ' → Nat}
    (hturns : ∀ {s t}, L.state s t → turns s.input = turns' t.input) (h : Linked L p q) :
    Linked L (Parser.many turns p) (Parser.many turns' q) :=
  (h.repetition hturns _ _).map _

theorem Linked.sepBy1 {p₂ : Parser σ υ β} {q₂ : Parser σ' υ' β} {turns : σ → Nat}
    {turns' : σ' → Nat} (hturns : ∀ {s t}, L.state s t → turns s.input = turns' t.input)
    (h : Linked L p q) (h₂ : Linked L p₂ q₂) :
    Linked L (Parser.sepBy1 turns p p₂) (Parser.sepBy1 turns' q q₂) :=
  h.bind fun first => ((h₂.discardLeft h).many hturns).map (first :: ·)

/-! ## Reading the same input -/

section Reading

variable {τ : Type} [Input σ τ] {L : Link σ υ σ υ}

/-- What a parser returns that has read items, of which `rest` is left, if there is a position
behind them. -/
def passed (output : α) (rest : σ) (user : υ) (position? : Option Position) :
    Outcome (Result σ υ α) :=
  (Outcome.ofInRange? position?).map fun position =>
    ⟨.consumed, .success output ⟨rest, user, position⟩ (.unknown position)⟩

/-- The runs part ways at most in the step behind the item. -/
theorem linked_token (hinput : ∀ {s t}, L.state s t → s.input = t.input) {shown : τ → String}
    {next : Position → τ → σ → Option Position} {test : τ → Option α}
    (hnext : ∀ {s t}, L.state s t → ∀ item rest output, test item = some output →
      (passed output rest s.user (next s.position item rest)).Follows L.lost L.fault
        (Result.Linked L) (passed output rest t.user (next t.position item rest))) :
    Linked L (token shown next test) (token shown next test) := by
  intro context s t hst
  unfold token
  rw [hinput hst]
  split
  · exact .returned (.failure (L.report _ hst))
  · rename_i item rest _
    split
    · exact .returned (.failure (L.report _ hst))
    · rename_i output houtput
      exact hnext hst item rest output houtput

/-- The runs part ways at most in the step behind all of the items. -/
theorem linked_tokens [DecidableEq τ] (hinput : ∀ {s t}, L.state s t → s.input = t.input)
    {shown : List τ → String} {next : Position → List τ → Option Position} {expected : List τ}
    (hnext : expected ≠ [] → ∀ {s t}, L.state s t → ∀ rest,
      (passed expected rest s.user (next s.position expected)).Follows L.lost L.fault
        (Result.Linked L) (passed expected rest t.user (next t.position expected))) :
    Linked L (tokens shown next expected) (tokens shown next expected) := by
  intro context s t hst
  unfold tokens
  rw [hinput hst]
  by_cases hempty : expected.isEmpty
  · rw [if_pos hempty, if_pos hempty]
    exact .returned (Result.linked_accept [] hst)
  · rw [if_neg hempty, if_neg hempty]
    have hne : expected ≠ [] := fun hnil => hempty (by rw [hnil, List.isEmpty_nil])
    split
    · rename_i rest _
      exact hnext hne hst rest
    · exact .returned (.failure (L.report _ hst))

end Reading

end Parser

/-! ## Grammars -/

namespace Grammar

variable {τ ι : Type} {ρ : ι → Type} [Input σ τ] [DecidableEq τ]
  {ok : {α : Type} → Grammar σ τ υ ρ α → Prop} {L : Link σ υ σ υ}

/-- A link between runs on the same input is a congruence, if it is kept by the steps behind items,
and by the nodes that know the state. -/
theorem congruence_of_link (turns : σ → Nat) (hinput : ∀ {s t}, L.state s t → s.input = t.input)
    (htoken : ∀ {α : Type} {shown : τ → String} {next : Position → τ → σ → Option Position}
      {test : τ → Option α}, ok (.token shown next test) → ∀ {s t}, L.state s t →
        ∀ item rest output, test item = some output →
          (Parser.passed output rest s.user (next s.position item rest)).Follows L.lost L.fault
            (Result.Linked L) (Parser.passed output rest t.user (next t.position item rest)))
    (htokens : ∀ {shown : List τ → String} {next : Position → List τ → Option Position}
      {expected : List τ}, ok (.tokens shown next expected) → expected ≠ [] →
        ∀ {s t}, L.state s t → ∀ rest,
          (Parser.passed expected rest s.user (next s.position expected)).Follows L.lost L.fault
            (Result.Linked L) (Parser.passed expected rest t.user (next t.position expected)))
    (hstate : ok .getState → ∀ {s t}, L.state s t → s = t)
    (hposition : ok .getPosition → ∀ {s t}, L.state s t → s.position = t.position)
    (huser : ok .getUser → ∀ {s t}, L.state s t → s.user = t.user)
    (hupdate : ∀ {f : State σ υ → Except Fault (State σ υ)}, ok (.updateState f) →
      Parser.Linked L (Parser.updateState f) (Parser.updateState f))
    (hmodify : ∀ {f : υ → υ}, ok (.modifyUser f) →
      Parser.Linked L (Parser.modifyUser f) (Parser.modifyUser f))
    (hparser : ∀ {α : Type} {p : Parser σ υ α}, ok (.ofParser p) → Parser.Linked L p p) :
    Congruence ok turns turns (Parser.Linked L) where
  pure := Parser.linked_pure
  failWith message := Parser.linked_failWith (L.report [message])
  zero := Parser.linked_zero
  map := Parser.Linked.map _
  bind := Parser.Linked.bind
  choice := Parser.Linked.choice
  labels := Parser.Linked.labels _
  attempt := Parser.Linked.attempt
  lookAhead := Parser.Linked.lookAhead
  notFollowedBy {_ shown _ _} :=
    Parser.Linked.notFollowedBy fun output => L.report [⟨.unexpected, shown output⟩]
  repetition := Parser.Linked.repetition (fun h => congrArg turns (hinput h)) _ _
  token h := Parser.linked_token hinput (htoken h)
  tokens h := Parser.linked_tokens hinput (htokens h)
  eof {shown} := by
    intro context s t hst
    unfold Parser.eof
    rw [hinput hst]
    split
    · exact .returned (Result.linked_accept () hst)
    · exact .returned (Result.linked_reject (L.report _ hst))
  getState h := Parser.linked_inspect (hstate h)
  getPosition h := Parser.linked_inspect (hposition h)
  getInput _ := Parser.linked_inspect hinput
  getUser h := Parser.linked_inspect (huser h)
  updateState := hupdate
  modifyUser := hmodify
  ofParser := hparser

end Grammar

end Parsing
