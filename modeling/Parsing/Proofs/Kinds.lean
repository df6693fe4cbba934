import Parsing.Described.Item
import Parsing.Input.Buffer
import Parsing.Input.Text
import Parsing.Proofs.Calls
import Parsing.Proofs.Simulation

/-!
# Any kind of input

Texts, lists and buffers are all read as the lists of their items. So a grammar that is written for
every kind of input, and whose functions look at the input through the operations only, gives the
same on inputs with the same items.

A buffer is the kind that could go wrong, since it is read through an offset into items that stay
where they are. In no call of a run does the offset lie past the last item, and the operations on
the buffer agree with those on the list of what is left.
-/

namespace Parsing

variable {σ σ' τ υ α : Type}

/-! ## Buffers -/

namespace Buffer

/-- The buffer holds `contents`, and no more has been taken than there is. -/
structure Within (contents : Array τ) (buffer : Buffer τ) : Prop where
  contents_eq : buffer.contents = contents
  offset_le : buffer.offset ≤ contents.size

/-- The buffer reads `contents` as the list of what is left of them is read. -/
structure Sound (contents : Array τ) (buffer : Buffer τ) : Prop extends Within contents buffer where
  rest_within {item : τ} {rest : Buffer τ} :
    Input.uncons? buffer = some (item, rest) → rest.Within contents
  remaining_eq : Input.items buffer = contents.toList.drop buffer.offset
  uncons?_eq : (Input.uncons? buffer).map (fun next => (next.1, Input.items next.2)) =
    Input.uncons? (contents.toList.drop buffer.offset)
  peek?_eq : Input.peek? buffer = Input.peek? (contents.toList.drop buffer.offset)
  isEmpty_eq : Input.isEmpty buffer = Input.isEmpty (contents.toList.drop buffer.offset)

variable {contents : Array τ} {buffer rest : Buffer τ} {item : τ}

/-- Taking an item moves the offset past it, which is not further than the last item. -/
theorem Within.uncons? (h : buffer.Within contents)
    (hnext : Input.uncons? buffer = some (item, rest)) : rest.Within contents := by
  obtain ⟨rfl, hoffset⟩ := h
  obtain ⟨found, hfound, heq⟩ := Option.map_eq_some_iff.1 hnext
  obtain ⟨rfl, rfl⟩ := Prod.mk.inj heq
  obtain ⟨hlt, -⟩ := Array.getElem?_eq_some_iff.1 hfound
  exact ⟨rfl, hlt⟩

theorem Within.sound (h : buffer.Within contents) : buffer.Sound contents := by
  have hremaining : Input.items buffer = contents.toList.drop buffer.offset := by
    rw [← h.contents_eq]
    rfl
  refine ⟨h, h.uncons?, hremaining, ?_, ?_, ?_⟩
  · rw [← hremaining]
    cases hnext : Input.uncons? buffer with
    | none => rw [Input.items_of_uncons?_none hnext]; rfl
    | some next => rw [Input.items_of_uncons?_some hnext]; rfl
  · rw [← hremaining, LawfulInput.peek?_eq, LawfulInput.peek?_eq]
    rfl
  · rw [← hremaining, LawfulInput.isEmpty_eq, LawfulInput.isEmpty_eq]
    rfl

/-- The items left of `contents`, next to a buffer that reads them. -/
theorem within_simulation (contents : Array τ) :
    Input.Simulation fun (items : List τ) (buffer : Buffer τ) =>
      Input.SameItems items buffer ∧ buffer.Within contents where
  uncons? {items buffer} h := by
    have hstep := Input.sameItems_simulation.uncons? h.1
    generalize Input.uncons? items = o, hnext : Input.uncons? buffer = o' at hstep ⊢
    cases hstep with
    | none => exact .none
    | some hsame => exact .some ⟨hsame.1, hsame.2, h.2.uncons? hnext⟩
  peek? h := Input.sameItems_simulation.peek? h.1
  isEmpty h := Input.sameItems_simulation.isEmpty h.1

end Buffer

/-! ## Grammars for every kind of input -/

namespace Grammar

variable {ι : Type} {ρ : ι → Type}

/-- The grammar is the same for every kind of input. -/
def Uniform (grammar : (σ : Type) → [Input σ τ] → Grammar σ τ υ ρ α) : Prop :=
  ∀ (σ σ' : Type) [Input σ τ] [Input σ' τ], (grammar σ).Matches (grammar σ')

/-- The steps of a described grammar look at what follows an item, and do so through the
operations. -/
theorem stepsAlike_stepRule [Described.Item τ] [Input σ τ] [Input σ' τ]
    (rule : Described.StepRule) :
    StepsAlike (rule.next : Position → τ → σ → Option Position)
      (rule.next : Position → τ → σ' → Option Position) := by
  intro R hR position item rest rest' hrest
  cases rule with
  | advance | stay | line => rfl
  | returnFeed => simp only [Described.StepRule.next, hR.peek? hrest]
  | last => simp only [Described.StepRule.next, hR.isEmpty hrest]

variable [DecidableEq τ]

/-- A success on a buffer leaves no more taken than there is. Next to the run goes the one on the
list of what is left, and the simulation of the two says where the offset is. -/
theorem Matches.keeps_within {rules : Rules (List τ) τ υ ρ} {rules' : Rules (Buffer τ) τ υ ρ}
    (hrules : ∀ i, (rules i).Matches (rules' i)) {p : Grammar (List τ) τ υ ρ α}
    {q : Grammar (Buffer τ) τ υ ρ α} (h : p.Matches q) (contents : Array τ) (turns : List τ → Nat)
    (depth : Nat) :
    Watch.KeptBy (fun _ state => state.input.Within contents)
      (parserAt rules' (fun buffer => turns (Input.items buffer)) depth q) := by
  intro context t hwithin
  have hlinked := h.linked (Buffer.within_simulation contents) hrules turns depth
  have hstart : State.Alike (fun (items : List τ) buffer =>
      Input.SameItems items buffer ∧ buffer.Within contents)
      ⟨Input.items t.input, t.user, t.position⟩ t := ⟨⟨rfl, hwithin⟩, rfl, rfl⟩
  have hboth := (hlinked context hstart).both
  refine (hboth.symm (S := fun b a => Result.Linked _ a b) fun _ _ h => h).ensures ?_
  intro result _ hresult output next hvalue
  cases hresult with
  | success hstate _ =>
    cases hvalue
    exact hstate.input.2
  | failure _ => cases hvalue

/-- In every call of a run on a buffer, the buffer reads its contents as the list of what is left is
read. -/
theorem Matches.throughout_sound {rules : Rules (List τ) τ υ ρ} {rules' : Rules (Buffer τ) τ υ ρ}
    (hrules : ∀ i, (rules i).Matches (rules' i)) {p : Grammar (List τ) τ υ ρ α}
    {q : Grammar (Buffer τ) τ υ ρ α} (h : p.Matches q) {contents : Array τ} (turns : List τ → Nat)
    (depth : Nat) (context : Context) {state : State (Buffer τ) υ}
    (hwithin : state.input.Within contents) :
    q.Throughout rules' ⟨fun buffer => turns (Input.items buffer), depth⟩
      (fun _ _ state => state.input.Sound contents) context state := by
  refine throughout_of_kept (J := fun _ state => state.input.Within contents)
    (fun i => (hrules i).everywhere) ?_ ?_ ?_ q h.everywhere hwithin
  · intro depth β q' hq'
    obtain ⟨p', hp'⟩ := hq'.here
    exact hp'.keeps_within hrules contents turns depth
  · intro context state deeper hstate _
    exact hstate
  · intro β q' context state hstate
    exact hstate.sound

/-- A grammar that is the same for every kind of input, with rules of which that is true as well,
gives the same on inputs of any two kinds with the same items: both runs stop at the same fault, or
both return the same, positions, messages and user values included, and leave the same items. And a
buffer in which no more has been taken than there is reads its contents as the list of what is left
is read, in every call of the run and after its success. -/
theorem runs_alike_on_every_kind {rules : (σ : Type) → [Input σ τ] → Rules σ τ υ ρ}
    (hrules : ∀ i, Uniform fun σ => rules σ i)
    {grammar : (σ : Type) → [Input σ τ] → Grammar σ τ υ ρ α} (hgrammar : Uniform grammar)
    (turns : List τ → Nat) (depth : Nat) (context : Context) (user : υ) (position : Position) :
    let run (σ : Type) [Input σ τ] (input : σ) : Outcome (Result σ υ α) :=
      (grammar σ).parser (rules σ) ⟨fun input => turns (Input.items input), depth⟩ context
        ⟨input, user, position⟩
    (∀ (σ σ' : Type) [Input σ τ] [LawfulInput σ] [Input σ' τ] [LawfulInput σ'] (input : σ)
      (input' : σ'), Input.items input = Input.items input' →
        (run σ input).Both (Result.Linked (.inputs Input.SameItems)) (run σ' input')) ∧
    ∀ buffer : Buffer τ, buffer.offset ≤ buffer.contents.size →
      (grammar (Buffer τ)).Throughout (rules (Buffer τ))
        ⟨fun input => turns (Input.items input), depth⟩
        (fun _ _ state => state.input.Sound buffer.contents) context ⟨buffer, user, position⟩ ∧
      (run (Buffer τ) buffer).Ensures fun result => ∀ output next,
        result.reply.value? = some (output, next) → next.input.Sound buffer.contents := by
  intro run
  constructor
  · intro σ σ' _ _ _ _ input input' hitems
    have hlinked := (hgrammar σ σ').linked Input.sameItems_simulation (fun i => hrules i σ σ') turns
      depth
    have hstart : State.Alike Input.SameItems (⟨input, user, position⟩ : State σ υ)
        (⟨input', user, position⟩ : State σ' υ) := ⟨hitems, rfl, rfl⟩
    exact (hlinked context hstart).both
  · intro buffer hoffset
    have hwithin : buffer.Within buffer.contents := ⟨rfl, hoffset⟩
    have hmatches : ∀ i, (rules (List τ) i).Matches (rules (Buffer τ) i) := fun i => hrules i _ _
    have hgoal := hgrammar (List τ) (Buffer τ)
    have hkept := hgoal.keeps_within hmatches buffer.contents turns depth
    refine ⟨hgoal.throughout_sound hmatches turns depth context hwithin, ?_⟩
    refine (hkept context ⟨buffer, user, position⟩ hwithin).mono ?_
    intro result hresult output next hvalue
    exact (hresult output next hvalue).sound

/-- Lines that end with a carriage return before the line feed, up to a letter. The step over a
carriage return looks at what follows, and behind the lines a parser by hand finds out whether
anything is left. -/
theorem lines_run_alike_on_every_kind :
    let lines : (σ : Type) → [Input σ Char] → Grammar σ Char Unit (fun _ : Unit => Bool) Bool :=
      fun _ => .discardLeft
        (.skipMany (.token Quoted.char Described.StepRule.returnFeed.next
          fun c => if c.isWhitespace then some c else none))
        (.ofParser fun _ state => .returned (.accept (Input.isEmpty state.input) state))
    let rules : (σ : Type) → [Input σ Char] → Rules σ Char Unit (fun _ : Unit => Bool) :=
      fun σ _ _ => lines σ
    let run (σ : Type) [Input σ Char] (input : σ) : Outcome (Result σ Unit Bool) :=
      (Grammar.rule ()).parser (rules σ) ⟨fun input => (Input.items input).length + 1, 2⟩
        (.start (some 3)) ⟨input, (), .initial "f"⟩
    let text := "\r\n\r\nx"
    (run Text (.ofString text)).Both (Result.Linked (.inputs Input.SameItems))
      (run (List Char) text.toList) ∧
    (run (List Char) text.toList).Both (Result.Linked (.inputs Input.SameItems))
      (run (Buffer Char) (.ofList text.toList)) ∧
    (run (Buffer Char) (.ofList text.toList)).Ensures fun result => ∀ output next,
      result.reply.value? = some (output, next) → next.input.Sound text.toList.toArray := by
  intro lines rules run text
  have hlines : Uniform lines := by
    intro σ σ' _ _
    refine .discardLeft (.skipMany (.token _ _ (stepsAlike_stepRule _))) (.ofParser ?_)
    intro R hR
    exact Parser.linked_inspect fun hst => hR.isEmpty hst.input
  have hrule : Uniform fun σ _ =>
      (Grammar.rule () : Grammar σ Char Unit (fun _ : Unit => Bool) Bool) :=
    fun _ _ _ _ => .rule ()
  have hrules : ∀ i, Uniform fun σ => rules σ i := fun _ => hlines
  obtain ⟨hkinds, hbuffer⟩ := runs_alike_on_every_kind hrules hrule
    (fun items => items.length + 1) 2 (.start (some 3)) () (.initial "f")
  have htext : Input.items (Text.ofString text) = Input.items text.toList :=
    congrArg String.toList (Text.rest_ofString text)
  have hitems : Input.items text.toList = Input.items (Buffer.ofList text.toList) :=
    (Buffer.remaining_ofList text.toList).symm
  exact ⟨hkinds _ _ _ _ htext, hkinds _ _ _ _ hitems, (hbuffer (.ofList _) (Nat.zero_le _)).2⟩

end Grammar

end Parsing
