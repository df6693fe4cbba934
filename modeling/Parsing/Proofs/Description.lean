import Mathlib.Data.List.Induction
import Mathlib.Data.List.Sort
import Parsing.ParseError.Description
import Parsing.Proofs.Explanation

/-!
# What the description of an error depends on

A description gives the texts of a kind of message once, in the order in which they occur first, and
no empty ones. Of the reports of the token parsers it gives the first, where the grammar has no
words of its own. So it does not change with what merging brings into an error: messages that are
there already, other kinds of messages between those of one kind, messages that say nothing, and
later reports.
-/

namespace Parsing

variable {kind : Message.Kind} {messages messages' more before after : List Message} {m : Message}
  {texts texts' : List String} {text : String}

namespace Message

/-! ## The texts of a kind of message -/

/-- The texts of a kind of message that are not empty, in the order in which they occur first. -/
structure FirstTexts (kind : Kind) (messages : List Message) (texts : List String) : Prop where
  /-- All texts of the kind are there, but the empty one. -/
  mem_iff (text : String) : text ∈ texts ↔ text ≠ "" ∧ ⟨kind, text⟩ ∈ messages
  /-- A text stands before those that occur later. So none of them is there twice. -/
  ordered : texts.Pairwise fun a b => messages.idxOf ⟨kind, a⟩ < messages.idxOf ⟨kind, b⟩

/-- The members and their order make up the list. -/
theorem FirstTexts.unique (h : FirstTexts kind messages texts)
    (h' : FirstTexts kind messages texts') :
    texts = texts' := by
  let earlier (a b : String) : Prop := messages.idxOf ⟨kind, a⟩ < messages.idxOf ⟨kind, b⟩
  have hirrefl : Std.Irrefl earlier := ⟨fun _ => Nat.lt_irrefl _⟩
  have hantisymm : Std.Antisymm earlier := ⟨fun _ _ hab hba => absurd hab (Nat.lt_asymm hba)⟩
  refine List.Pairwise.eq_of_mem_iff h.ordered h'.ordered fun text => ?_
  rw [h.mem_iff, h'.mem_iff]

/-- The texts of a kind of message that are not empty, as often as they occur. -/
def allTexts (kind : Kind) (messages : List Message) : List String :=
  ((messages.filter (·.kind = kind)).map (·.text)).filter (!·.isEmpty)

theorem textsOf_eq (kind : Kind) (messages : List Message) :
    textsOf kind messages = (allTexts kind messages).eraseDups := rfl

theorem mem_allTexts_iff : text ∈ allTexts kind messages ↔ text ≠ "" ∧ ⟨kind, text⟩ ∈ messages := by
  have h : text ∈ textsOf kind messages ↔ ⟨kind, text⟩ ∈ messages ∧ text.isEmpty = false :=
    mem_textsOf_iff
  rw [textsOf_eq, List.mem_eraseDups, ← Bool.not_eq_true, String.isEmpty_iff] at h
  rw [h, and_comm]

theorem allTexts_append (kind : Kind) (messages more : List Message) :
    allTexts kind (messages ++ more) = allTexts kind messages ++ allTexts kind more := by
  simp [allTexts]

theorem allTexts_of_silent (h : m.kind ≠ kind ∨ m.text = "") : allTexts kind [m] = [] := by
  rcases h with h | h
  · simp [allTexts, h]
  · by_cases hkind : m.kind = kind <;> simp [allTexts, hkind, h]

theorem allTexts_of_telling (hkind : m.kind = kind) (htext : m.text ≠ "") :
    allTexts kind [m] = [m.text] := by
  simp [allTexts, hkind, htext]

/-- A message of another kind, or one that says nothing, may stand anywhere. -/
theorem textsOf_insert (h : m.kind ≠ kind ∨ m.text = "") (before after : List Message) :
    textsOf kind (before ++ m :: after) = textsOf kind (before ++ after) := by
  rw [textsOf_eq, List.append_cons, allTexts_append, allTexts_append, allTexts_of_silent h,
    List.append_nil, ← allTexts_append, textsOf_eq]

/-- Texts that have occurred before add nothing. -/
theorem textsOf_append_of_old (h : ∀ text ∈ allTexts kind more, text ∈ allTexts kind messages) :
    textsOf kind (messages ++ more) = textsOf kind messages := by
  have hnone : (allTexts kind more).removeAll (allTexts kind messages) = [] := by
    rw [List.removeAll, List.filter_eq_nil_iff]
    intro text htext
    simp [h text htext]
  rw [textsOf_eq, allTexts_append, List.eraseDups_append, hnone]
  exact List.append_nil _

/-- A text that has not occurred before comes behind the others. -/
theorem textsOf_concat_of_new (hkind : m.kind = kind) (htext : m.text ≠ "") (hnew : m ∉ messages) :
    textsOf kind (messages ++ [m]) = textsOf kind messages ++ [m.text] := by
  have hout : m.text ∉ allTexts kind messages := by
    rw [mem_allTexts_iff, ← hkind]
    exact fun h => hnew h.2
  have hall : [m.text].removeAll (allTexts kind messages) = [m.text] := by
    rw [List.removeAll, List.filter_eq_self]
    intro text hmem
    rw [List.mem_singleton.1 hmem]
    simpa using hout
  rw [textsOf_eq, allTexts_append, allTexts_of_telling hkind htext, List.eraseDups_append, hall]
  rfl

theorem firstTexts_textsOf (kind : Kind) (messages : List Message) :
    FirstTexts kind messages (textsOf kind messages) where
  mem_iff text := by rw [textsOf_eq, List.mem_eraseDups, mem_allTexts_iff]
  ordered := by
    induction messages using List.reverseRecOn with
    | nil => exact .nil
    | append_singleton messages m ih =>
      have hbefore : ∀ text ∈ textsOf kind messages, ⟨kind, text⟩ ∈ messages := fun text htext =>
        (mem_textsOf_iff.1 htext).1
      -- what occurred first among the messages does so with one more behind them
      have hsame : (textsOf kind messages).Pairwise fun a b =>
          (messages ++ [m]).idxOf ⟨kind, a⟩ < (messages ++ [m]).idxOf ⟨kind, b⟩ := by
        refine ih.imp_of_mem fun ha hb hab => ?_
        rwa [List.idxOf_append_of_mem (hbefore _ ha), List.idxOf_append_of_mem (hbefore _ hb)]
      by_cases hnew : m.kind = kind ∧ m.text ≠ "" ∧ m ∉ messages
      · obtain ⟨rfl, htext, hnew⟩ := hnew
        rw [textsOf_concat_of_new rfl htext hnew, List.pairwise_append]
        refine ⟨hsame, List.pairwise_singleton _ _, fun a ha b hb => ?_⟩
        have hlt := List.idxOf_lt_length_of_mem (hbefore a ha)
        rw [List.mem_singleton.1 hb, List.idxOf_append_of_mem (hbefore a ha),
          List.idxOf_append_of_notMem hnew]
        omega
      · rw [textsOf_append_of_old]
        · exact hsame
        · intro text htext
          obtain ⟨hne, hmem⟩ := mem_allTexts_iff.1 htext
          obtain rfl := List.mem_singleton.1 hmem
          exact mem_allTexts_iff.2 ⟨hne, by_contra fun hnot => hnew ⟨rfl, hne, hnot⟩⟩

/-! ## The lines of a description -/

/-- The line on what was met: the words of the grammar, or else what the token parsers reported
first. -/
inductive MetLine (messages : List Message) : List String → Prop where
  /-- The grammar has words of its own. -/
  | words {texts : List String} (h : FirstTexts .unexpected messages texts) (hne : texts ≠ []) :
    MetLine messages ["unexpected " ++ joinAlternatives texts]
  /-- The first report of a token parser; the empty one is about the end of the input. -/
  | report {before after : List Message} {text : String} (h : FirstTexts .unexpected messages [])
    (hmessages : messages = before ++ ⟨.systemUnexpected, text⟩ :: after)
    (hfirst : ∀ m ∈ before, m.kind ≠ .systemUnexpected) :
    MetLine messages ["unexpected " ++ if text = "" then "end of input" else text]
  /-- Nothing is known about it. -/
  | nothing (h : FirstTexts .unexpected messages [])
    (hnone : ∀ m ∈ messages, m.kind ≠ .systemUnexpected) : MetLine messages []

/-- The line on what could have been read. -/
inductive WantedLine (messages : List Message) : List String → Prop where
  /-- Something could. -/
  | some {texts : List String} (h : FirstTexts .expected messages texts) (hne : texts ≠ []) :
    WantedLine messages ["expecting " ++ joinAlternatives texts]
  /-- Nothing is known about it. -/
  | nothing (h : FirstTexts .expected messages []) : WantedLine messages []

theorem metLine_unexpectedPhrase (messages : List Message) :
    MetLine messages ((ParseError.unexpectedPhrase messages).map ("unexpected " ++ ·)).toList := by
  have hfirst := firstTexts_textsOf .unexpected messages
  unfold ParseError.unexpectedPhrase
  cases htexts : textsOf .unexpected messages with
  | cons text texts =>
    rw [htexts] at hfirst
    exact .words hfirst (List.cons_ne_nil _ _)
  | nil =>
    rw [htexts] at hfirst
    cases hreport : messages.find? (·.kind = .systemUnexpected) with
    | none =>
      refine .nothing hfirst fun m hm => ?_
      simpa using List.find?_eq_none.1 hreport m hm
    | some m =>
      obtain ⟨hkind, before, after, hmessages, hbefore⟩ := List.find?_eq_some_iff_append.1 hreport
      obtain ⟨kind, text⟩ := m
      obtain rfl : kind = .systemUnexpected := of_decide_eq_true hkind
      have hline := MetLine.report hfirst hmessages fun m hm => by simpa using hbefore m hm
      have htext : (if text = "" then "end of input" else text) =
          if text.isEmpty then "end of input" else text := by simp
      rw [htext] at hline
      exact hline

theorem wantedLine_expectedPhrase (messages : List Message) :
    WantedLine messages ((ParseError.expectedPhrase messages).map ("expecting " ++ ·)).toList := by
  have hfirst := firstTexts_textsOf .expected messages
  unfold ParseError.expectedPhrase
  cases htexts : textsOf .expected messages with
  | nil => exact .nothing (htexts ▸ hfirst)
  | cons text texts => exact .some (htexts ▸ hfirst) (List.cons_ne_nil _ _)

end Message

theorem joinAlternatives_cons (first next : String) {rest : List String} (h : rest ≠ []) :
    joinAlternatives (first :: next :: rest) =
      first ++ ", " ++ joinAlternatives (next :: rest) := by
  cases rest with
  | nil => exact absurd rfl h
  | cons last rest => rfl

/-- There is a comma between each two alternatives, and `or` before the last. -/
theorem joinAlternatives_concat {init : List String} (h : init ≠ []) (last : String) :
    joinAlternatives (init ++ [last]) = ", ".intercalate init ++ " or " ++ last := by
  induction init with
  | nil => exact absurd rfl h
  | cons first init ih =>
    cases init with
    | nil => simp [joinAlternatives]
    | cons next init =>
      rw [List.cons_append, List.cons_append, joinAlternatives_cons _ _ (by simp),
        ← List.cons_append, ih (List.cons_ne_nil next init), String.intercalate_cons_cons]
      simp only [String.append_assoc]

/-! ## What makes no difference -/

namespace Message

/-- Nothing that a description asks for tells the messages apart. -/
structure Alike (messages messages' : List Message) : Prop where
  /-- Both have messages, or neither has. -/
  nil_iff : messages = [] ↔ messages' = []
  /-- The texts that are given are the same. -/
  texts (kind : Kind) (h : kind ≠ .systemUnexpected) :
    textsOf kind messages = textsOf kind messages'
  /-- The first report of the token parsers is the same. -/
  report : messages.find? (·.kind = .systemUnexpected) =
    messages'.find? (·.kind = .systemUnexpected)

theorem Alike.lines_eq (h : Alike messages messages') :
    ParseError.lines messages = ParseError.lines messages' := by
  unfold ParseError.lines ParseError.unexpectedPhrase ParseError.expectedPhrase
  rw [h.texts .unexpected (by decide), h.texts .expected (by decide), h.texts .plain (by decide),
    h.report]
  simp only [List.isEmpty_iff, h.nil_iff]

theorem Alike.describe_eq (h : Alike messages messages') (position : Position) :
    (⟨position, messages⟩ : ParseError).describe =
      (⟨position, messages'⟩ : ParseError).describe := by
  rw [ParseError.describe, ParseError.describe, h.lines_eq]

/-- Messages that are there already may be there again. -/
theorem alike_append_of_subset (h : ∀ m ∈ more, m ∈ messages) :
    Alike (messages ++ more) messages where
  nil_iff := by
    refine ⟨fun hnil => (List.append_eq_nil_iff.1 hnil).1, ?_⟩
    rintro rfl
    exact List.eq_nil_iff_forall_not_mem.2 fun m hm => List.not_mem_nil (h m hm)
  texts kind _ := by
    refine textsOf_append_of_old fun text htext => ?_
    obtain ⟨hne, hmem⟩ := mem_allTexts_iff.1 htext
    exact mem_allTexts_iff.2 ⟨hne, h _ hmem⟩
  report := by
    rw [List.find?_append]
    cases hreport : messages.find? (·.kind = .systemUnexpected) with
    | some m => rfl
    | none =>
      rw [Option.none_or, List.find?_eq_none]
      exact fun m hm => List.find?_eq_none.1 hreport m (h m hm)

/-- Only the order within each kind of messages is asked for. -/
theorem alike_of_filter_eq
    (h : ∀ kind, messages.filter (·.kind = kind) = messages'.filter (·.kind = kind)) :
    Alike messages messages' where
  nil_iff := by
    have hmem : ∀ m, m ∈ messages ↔ m ∈ messages' := by
      intro m
      have hkind : m ∈ messages.filter (·.kind = m.kind) ↔
          m ∈ messages'.filter (·.kind = m.kind) := by
        rw [h]
      simpa using hkind
    simp only [List.eq_nil_iff_forall_not_mem, hmem]
  texts kind _ := by rw [textsOf, textsOf, h]
  report := by rw [← List.head?_filter, ← List.head?_filter, h]

/-- A message that says nothing makes no difference between others. -/
theorem alike_insert_silent (hkind : kind ≠ .systemUnexpected) (h : before ++ after ≠ []) :
    Alike (before ++ ⟨kind, ""⟩ :: after) (before ++ after) where
  nil_iff := iff_of_false (by simp) h
  texts _ _ := textsOf_insert (Or.inr rfl) before after
  report := by simp [List.find?_append, hkind]

/-- A report of a token parser makes no difference behind another one. -/
theorem alike_insert_report (h : ∃ m ∈ before, m.kind = .systemUnexpected) :
    Alike (before ++ ⟨.systemUnexpected, text⟩ :: after) (before ++ after) where
  nil_iff := by
    obtain ⟨m, hm, -⟩ := h
    refine iff_of_false (by simp) fun hnil => ?_
    rw [(List.append_eq_nil_iff.1 hnil).1] at hm
    cases hm
  texts kind hkind := textsOf_insert (Or.inl hkind.symm) before after
  report := by
    obtain ⟨m, hm, hkind⟩ := h
    have hsome : (before.find? (·.kind = .systemUnexpected)).isSome = true :=
      List.find?_isSome.2 ⟨m, hm, decide_eq_true hkind⟩
    rw [List.find?_append, List.find?_append, Option.or_of_isSome hsome, Option.or_of_isSome hsome]

end Message

namespace ParseError

theorem merge_self (e : ParseError) : e.merge e = ⟨e.position, e.messages ++ e.messages⟩ :=
  merge_of_rank_eq rfl

theorem describe_of_known {e : ParseError} (h : e.messages ≠ []) :
    e.describe = "\n".intercalate ((e.position.describe ++ ":") ::
      (((unexpectedPhrase e.messages).map ("unexpected " ++ ·)).toList ++
        ((expectedPhrase e.messages).map ("expecting " ++ ·)).toList ++
        Message.textsOf .plain e.messages)) := by
  rw [describe, lines, if_neg (by simpa using h)]

/-- The description of an error that has messages is its position, a colon, and a line for each of
the following: what was met, what could have been read, and each remark. Texts of a kind are given
once, in the order in which they occur first, with commas between them and `or` before the last. So
the description stays the same if an error is merged with itself, if a message that is there is
added again, if messages change places but not with others of their kind, if a message that says
nothing is put in or taken out between others, and if a report of a token parser is put in or taken
out behind another one. -/
theorem description_depends_on_first_texts (e : ParseError) :
    (∀ kind, ∃! texts, Message.FirstTexts kind e.messages texts) ∧
    (∀ text, joinAlternatives [text] = text) ∧
    (∀ init last, init ≠ [] →
      joinAlternatives (init ++ [last]) = ", ".intercalate init ++ " or " ++ last) ∧
    (e.messages ≠ [] → ∃ met wanted remarks,
      Message.MetLine e.messages met ∧ Message.WantedLine e.messages wanted ∧
        Message.FirstTexts .plain e.messages remarks ∧
        e.describe =
          "\n".intercalate ((e.position.describe ++ ":") :: (met ++ wanted ++ remarks))) ∧
    (e.merge e).describe = e.describe ∧
    (∀ m ∈ e.messages, (e.add m).describe = e.describe) ∧
    (∀ messages : List Message,
      (∀ kind, messages.filter (·.kind = kind) = e.messages.filter (·.kind = kind)) →
        (⟨e.position, messages⟩ : ParseError).describe = e.describe) ∧
    ∀ before after : List Message, e.messages = before ++ after →
      (e.messages ≠ [] → ∀ kind : Message.Kind, kind ≠ .systemUnexpected →
        (⟨e.position, before ++ ⟨kind, ""⟩ :: after⟩ : ParseError).describe = e.describe) ∧
      ((∃ m ∈ before, m.kind = .systemUnexpected) → ∀ text,
        (⟨e.position, before ++ ⟨.systemUnexpected, text⟩ :: after⟩ : ParseError).describe =
          e.describe) := by
  refine ⟨fun kind => ?_, fun _ => rfl, fun init last hinit => joinAlternatives_concat hinit last,
    fun hmessages => ?_, ?_, fun m hm => ?_, fun messages hsame => ?_,
    fun before after hsplit => ?_⟩
  · exact ⟨_, Message.firstTexts_textsOf kind e.messages,
      fun texts htexts => htexts.unique (Message.firstTexts_textsOf kind e.messages)⟩
  · exact ⟨_, _, _, Message.metLine_unexpectedPhrase e.messages,
      Message.wantedLine_expectedPhrase e.messages, Message.firstTexts_textsOf .plain e.messages,
      describe_of_known hmessages⟩
  · rw [merge_self]
    exact (Message.alike_append_of_subset fun _ hm => hm).describe_eq e.position
  · have hold : ∀ m' ∈ [m], m' ∈ e.messages := by simpa using hm
    exact (Message.alike_append_of_subset hold).describe_eq e.position
  · exact (Message.alike_of_filter_eq hsame).describe_eq e.position
  · obtain ⟨position, messages⟩ := e
    obtain rfl : messages = before ++ after := hsplit
    refine ⟨fun hne kind hkind => ?_, fun hreport text => ?_⟩
    · exact (Message.alike_insert_silent hkind hne).describe_eq position
    · exact (Message.alike_insert_report hreport).describe_eq position

/-- A text that came twice, a second report and a remark without text are not to be seen, and
sorting the messages by their kinds changes nothing. -/
theorem repeated_and_silent_described :
    let before : List Message := [⟨.expected, "digit"⟩, ⟨.systemUnexpected, "'x'"⟩]
    let after : List Message := [⟨.plain, "odd"⟩, ⟨.expected, "letter"⟩, ⟨.expected, "digit"⟩]
    let sorted : List Message := [⟨.systemUnexpected, "'x'"⟩, ⟨.expected, "digit"⟩,
      ⟨.expected, "letter"⟩, ⟨.expected, "digit"⟩, ⟨.plain, "odd"⟩]
    let described (messages : List Message) : String := ParseError.describe ⟨.initial "", messages⟩
    described (before ++ after) =
        "(line 1, column 1):\nunexpected 'x'\nexpecting digit or letter\nodd" ∧
      described (before ++ after ++ [⟨.expected, "letter"⟩]) = described (before ++ after) ∧
      described sorted = described (before ++ after) ∧
      described (before ++ ⟨.plain, ""⟩ :: after) = described (before ++ after) ∧
      described (before ++ ⟨.systemUnexpected, "'y'"⟩ :: after) = described (before ++ after) ∧
      joinAlternatives (["digit", "letter"] ++ ["space"]) = "digit, letter or space" := by
  intro before after sorted described
  obtain ⟨-, -, hjoined, -, -, hadd, hsorted, hinsert⟩ :=
    description_depends_on_first_texts ⟨.initial "", before ++ after⟩
  obtain ⟨hsilent, hreport⟩ := hinsert before after rfl
  have hkinds : ∀ kind, sorted.filter (·.kind = kind) =
      (before ++ after).filter (·.kind = kind) := by
    intro kind
    cases kind <;> rfl
  have htext : described (before ++ after) =
      "(line 1, column 1):\nunexpected 'x'\nexpecting digit or letter\nodd" := by
    simp only [described, before, after]
    decide +kernel
  have hbefore : ∃ m ∈ before, m.kind = .systemUnexpected :=
    ⟨⟨.systemUnexpected, "'x'"⟩, by simp [before], rfl⟩
  exact ⟨htext, hadd ⟨.expected, "letter"⟩ (by simp [after]), hsorted sorted hkinds,
    hsilent (by simp [before]) .plain (by decide), hreport hbefore "'y'",
    hjoined ["digit", "letter"] "space" (by simp)⟩

end ParseError

end Parsing
