import Journey.Proofs.Config.Reloaded
import Journey.Proofs.Workflow.Restored

/-!
# Journey.Proofs.Workflow.Reread -- nodes and edges that are stored and restored

What a stored node or edge is restored as (`restoreNode_document`, `restoreEdge_document`): identifiers,
kinds and ends are those that were stored, and the rest is repaired part by part.  Every repair lands on
what the same repair leaves alone: a trimmed text, a finite number, a current handle, a label that is
made from the handle, counters and settings that were read.  So what is restored from any item, once it is
stored, is restored as something that is stored in the same way (`Node.Steady`, `Edge.Steady`).
-/

namespace Journey

set_option autoImplicit false

open Journey.Text (trim lower Trimmed)

/-! ## Texts, names and numbers -/

namespace Document

variable {s : String} {t : Option String}

/-- Nothing, or a text that is not empty and has no blanks around it. -/
def Tidy (t : Option String) : Prop := ∀ s, t = some s → Trimmed s ∧ s ≠ ""

theorem trimmed?_text (h : Trimmed s ∧ s ≠ "") : (Document.text s).trimmed? = some s :=
  trimmed?_eq_some_iff.2 h

theorem trimmed_null : Document.null.trimmed = "" := by decide +kernel

theorem trimmed?_ofText? (h : Tidy t) : (ofText? t).trimmed? = t := by
  cases t with
  | none =>
    show trimmed? .null = none
    rw [trimmed?, trimmed_null]
    rfl
  | some s => exact trimmed?_text (h s rfl)

theorem tidy_trimmed? (d : Document) : Tidy d.trimmed? := by
  intro s h
  obtain ⟨rfl, nonempty⟩ := trimmed?_eq_some_iff.1 h
  exact ⟨trimmed_trimmed d, nonempty⟩

/-- The text of a document that states something is not empty. -/
theorem shown_ne_empty {d : Document} (stated : d.isVoid = false) : d.shown ≠ "" := by
  cases d with
  | null => cases stated
  | bool b =>
    cases b with
    | false => cases stated
    | true => decide +kernel
  | int n => exact Text.writeInt_ne_empty n
  | float x => exact Text.write_ne_empty x
  | text s => simpa [isVoid] using stated
  | list ds =>
    show inner (.list ds) ≠ ""
    rw [inner]
    exact Text.append_ne_empty_left (Text.append_ne_empty_left (by decide) _) _
  | object row =>
    show inner (.object row) ≠ ""
    rw [inner]
    exact Text.append_ne_empty_left (Text.append_ne_empty_left (by decide) _) _

/-- A number that stands for a document stands for itself. -/
theorem number_number (fallback : Float) (d : Document) :
    (Document.float (d.number fallback)).number fallback = d.number fallback := by
  have either := isFinite_number_or fallback d
  generalize d.number fallback = x at either
  rcases either with finite | rfl
  · exact if_pos finite
  · exact ite_self _

theorem nameIn_kind (k : NodeKind) : (Document.text k.name).nameIn NodeKind.named? = some k := by
  cases k <;> decide +kernel

theorem nameIn_status (s : NodeStatus) :
    (Document.text s.name).nameIn NodeStatus.named? = some s := by
  cases s <;> decide +kernel

theorem nameIn_workflowStatus (s : WorkflowStatus) :
    (Document.text s.name).nameIn WorkflowStatus.named? = some s := by
  cases s <;> decide +kernel

end Document

/-! ## Counters -/

namespace Counters

/-- The declared fields with what is stored for them. -/
def members (c : Counters) : List (Key × Document) :=
  keys.zip [.ofInt? c.enrollmentCount, .ofText? c.lastError]

theorem document_eq (c : Counters) : c.document .dropped
    = .object (Nulls.dropped.members (Fields.overlay (Fields.declared c.members) c.extra)) := rfl

theorem decode_eq_valid_iff {row : Fields} {c : Counters} :
    decode row = .valid c ↔
      Checked.field row enrollmentCountKey (.orNull .whole) none = .valid c.enrollmentCount
        ∧ Checked.field row lastErrorKey (.orNull .text) none = .valid c.lastError
        ∧ c.extra = Key.unclaimed keys row := by
  rw [eq_comm (a := c.extra)]
  cases c
  simp [decode, Functor.map, Seq.seq, Checked.seq_eq_valid_iff, Checked.map_eq_valid_iff]

/-- In counters that were read from members that hold something no foreign member stands in the place of
a field. -/
theorem apart_of_decode {row : Fields} {c : Counters} (solid : row.Solid) (h : decode row = .valid c) :
    Fields.Apart c.members c.extra := by
  obtain ⟨count, last, extra⟩ := decode_eq_valid_iff.1 h
  have proper : Key.Proper keys := by decide
  rw [extra]
  refine Fields.apart_unclaimed proper ?_
  simpa [members, keys] using ⟨Checked.absent_of_field solid count, Checked.absent_of_field solid last⟩

theorem decode_stored {c : Counters} (h : Fields.Apart c.members c.extra) :
    decode (Nulls.dropped.members (Fields.overlay (Fields.declared c.members) c.extra))
      = .valid { c with extra := Fields.kept c.extra } := by
  have unclaimed : Key.unclaimed keys _ = _ := h.unclaimed
  rw [decode, unclaimed,
    Checked.field_of_apart h (List.mem_of_getElem? (i := 0) rfl) (Checked.reads_int? c.enrollmentCount),
    Checked.field_of_apart h (List.mem_of_getElem? (i := 1) rfl) (Checked.reads_text? c.lastError)]
  rfl

/-- Reading changes nothing that is written. -/
theorem document_kept {c : Counters} (h : Fields.Apart c.members c.extra) :
    Counters.document .dropped { c with extra := Fields.kept c.extra } = c.document .dropped :=
  congrArg Document.object h.members_kept

/-- Of counters that were read from some members something is written. -/
theorem written_ne_nil {row : Fields} {c : Counters} (solid : row.Solid) (nonempty : row ≠ [])
    (h : decode row = .valid c) :
    Nulls.dropped.members (Fields.overlay (Fields.declared c.members) c.extra) ≠ [] := by
  intro unwritten
  have apart := apart_of_decode solid h
  have again := decode_stored apart
  obtain ⟨count, last, extra⟩ := decode_eq_valid_iff.1 h
  rw [unwritten] at again
  rw [apart.members_eq, List.append_eq_nil_iff] at unwritten
  -- nothing is read from no members, so that no field has taken a member
  injection again with again
  injection again with counted recorded left
  rw [← counted] at count
  rw [← recorded] at last
  have untaken : Key.unclaimed keys row = row := by
    rw [Key.unclaimed, keys, List.filterMap_cons, Checked.find?_of_open solid count, List.filterMap_cons,
      Checked.find?_of_open solid last]
    exact List.filter_eq_self.2 fun _ _ => rfl
  rw [extra, untaken] at unwritten
  exact Fields.kept_ne_nil solid nonempty unwritten.2

end Counters

namespace Workflow

theorem decode_of_restoreCounters {d : Document} {c : Counters} (h : restoreCounters d = some c) :
    d.fields ≠ [] ∧ Counters.decode d.fields = .valid c := by
  unfold restoreCounters at h
  split at h
  · cases h
  · next nonempty =>
    refine ⟨by simpa using nonempty, ?_⟩
    cases read : Counters.decode d.fields with
    | valid c' =>
      rw [read] at h
      exact congrArg Checked.valid (Option.some.inj h)
    | faulty ps =>
      rw [read] at h
      cases h

/-- Counters that were read are read again from what is stored, and stored in the same way. -/
theorem document_restoreCounters {d : Document} (solid : d.fields.Solid) :
    (restoreCounters (((restoreCounters d).map (Counters.document .dropped)).getD .null)).map
        (Counters.document .dropped)
      = (restoreCounters d).map (Counters.document .dropped) := by
  cases read : restoreCounters d with
  | none => rfl
  | some c =>
    obtain ⟨nonempty, decoded⟩ := decode_of_restoreCounters read
    have apart := Counters.apart_of_decode solid decoded
    have full := Counters.written_ne_nil solid nonempty decoded
    have again : restoreCounters (c.document .dropped) = some { c with extra := Fields.kept c.extra } := by
      rw [restoreCounters, Counters.document_eq, Document.fields_object, if_neg (by simpa using full),
        Counters.decode_stored apart]
      rfl
    rw [Option.map_some, Option.getD_some, again, Option.map_some, Counters.document_kept apart]

/-! ## Nodes -/

/-- The members of a node that are stored if they hold something. -/
def storedNode (n : Node) : Fields :=
  [("id", .text n.id), ("title", .text n.title), ("position", n.position.document),
   ("status", .text n.status.name), ("meta", (n.counters.map (Counters.document .dropped)).getD .null),
   ("kind", .text n.kind.name), ("config", n.config.document .dropped)]

theorem getD_storedNode (n : Node) (key : String) :
    Fields.getD (n.document .dropped).fields key = Fields.getD (storedNode n) key := by
  refine Fields.getD_members ?_ key
  show ["id", "title", "position", "status", "meta", "kind", "config"].Nodup
  decide

/-- What a stored node is restored as. -/
theorem restoreNode_document (position : Nat) (id : String) (n : Node) :
    restoreNode position id (n.document .dropped) =
      { id
        title := ((Document.text n.title).trimmed?).getD n.kind.block.label
        position := restorePosition position n.position.document
        status := n.status
        counters := restoreCounters ((n.counters.map (Counters.document .dropped)).getD .null)
        config := Config.salvage n.kind n.kind.standardConfig (n.config.document .dropped) } := by
  have title : Fields.getD (n.document .dropped).fields "title" = .text n.title := getD_storedNode n _
  have place : Fields.getD (n.document .dropped).fields "position" = n.position.document :=
    getD_storedNode n _
  have status : Fields.getD (n.document .dropped).fields "status" = .text n.status.name :=
    getD_storedNode n _
  have counters : Fields.getD (n.document .dropped).fields "meta"
      = (n.counters.map (Counters.document .dropped)).getD .null := getD_storedNode n _
  have kind : Fields.getD (n.document .dropped).fields "kind" = .text n.kind.name := getD_storedNode n _
  have config : Fields.getD (n.document .dropped).fields "config" = n.config.document .dropped :=
    getD_storedNode n _
  unfold restoreNode
  dsimp only
  rw [title, place, status, counters, kind, config, Document.nameIn_kind, Document.nameIn_status]
  rfl

theorem config_restoreNode_document {n : Node} (apart : n.config.Apart) (position : Nat) (id : String) :
    (restoreNode position id (n.document .dropped)).config = n.config.reloaded := by
  rw [restoreNode_document]
  exact Config.salvage_document apart _

theorem document_congr {m n : Node} (id : m.id = n.id) (title : m.title = n.title)
    (position : m.position = n.position) (status : m.status = n.status)
    (counters : m.counters.map (Counters.document .dropped) = n.counters.map (Counters.document .dropped))
    (kind : m.kind = n.kind) (config : m.config.document .dropped = n.config.document .dropped) :
    m.document .dropped = n.document .dropped := by
  rw [Node.document, Node.document, id, title, position, status, counters, kind, config]

end Workflow

/-- A node that is restored under its identifier as something that is stored in the same way. -/
structure Node.Steady (position : Nat) (n : Node) : Prop where
  named : Trimmed n.id ∧ n.id ≠ ""
  apart : n.config.Apart
  same : (Workflow.restoreNode position n.id (n.document .dropped)).document .dropped
    = n.document .dropped

namespace Workflow

theorem steady_of_parts {position : Nat} {n : Node} (named : Trimmed n.id ∧ n.id ≠ "")
    (titled : Trimmed n.title ∧ n.title ≠ "")
    (placed : restorePosition position n.position.document = n.position)
    (counted : (restoreCounters ((n.counters.map (Counters.document .dropped)).getD .null)).map
      (Counters.document .dropped) = n.counters.map (Counters.document .dropped))
    (apart : n.config.Apart)
    (config : n.config.reloaded.document .dropped = n.config.document .dropped) :
    n.Steady position := by
  refine ⟨named, apart, ?_⟩
  have reread := config_restoreNode_document apart position n.id
  have kind : (restoreNode position n.id (n.document .dropped)).kind = n.kind := by
    rw [Node.kind, reread, Config.kind_reloaded, Node.kind]
  rw [← reread] at config
  rw [restoreNode_document] at kind config ⊢
  refine document_congr rfl ?_ placed rfl counted kind config
  rw [Document.trimmed?_text titled]
  rfl

theorem restorePosition_document (position : Nat) (p : Position) :
    restorePosition position p.document
      = ⟨(Document.float p.x).number (Float.ofNat (position * nodeSpacing)),
          (Document.float p.y).number nodeHeight⟩ := by
  simp [restorePosition, Position.document, Fields.getD, Fields.get?_cons]

theorem restorePosition_restorePosition (position : Nat) (d : Document) :
    restorePosition position (restorePosition position d).document = restorePosition position d := by
  rw [restorePosition_document, restorePosition, Document.number_number, Document.number_number]

theorem restoreNode_eq {position : Nat} {id : String} {d : Document} {kind : NodeKind}
    (known : ((Fields.getD d.fields "kind").nameIn NodeKind.named?).getD .wait = kind) :
    restoreNode position id d =
      { id
        title := ((Fields.getD d.fields "title").trimmed?).getD kind.block.label
        position := restorePosition position (Fields.getD d.fields "position")
        status := ((Fields.getD d.fields "status").nameIn NodeStatus.named?).getD .draft
        counters := restoreCounters (Fields.getD d.fields "meta")
        config := Config.salvage kind kind.standardConfig (Fields.getD d.fields "config") } := by
  simp only [restoreNode, known]

theorem trimmed_label (kind : NodeKind) : Trimmed kind.block.label ∧ kind.block.label ≠ "" := by
  cases kind <;> decide +kernel

/-- What is restored from an item is restored from what is then stored. -/
theorem steady_restoreNode (position : Nat) {id : String} (named : Trimmed id ∧ id ≠ "") {d : Document}
    (config : (Fields.getD d.fields "config").fields.Solid)
    (counters : (Fields.getD d.fields "meta").fields.Solid) :
    (restoreNode position id d).Steady position := by
  generalize known : ((Fields.getD d.fields "kind").nameIn NodeKind.named?).getD .wait = kind
  rw [restoreNode_eq known]
  refine steady_of_parts named ?_ (restorePosition_restorePosition position _)
    (document_restoreCounters counters) (Config.apart_salvage kind config)
    (Config.document_salvage kind config)
  cases title : (Fields.getD d.fields "title").trimmed? with
  | none => exact trimmed_label kind
  | some s => exact Document.tidy_trimmed? _ s title

/-! ## Labels -/

end Workflow

namespace Handle

theorem trimmed_elseIfLabel (n : Nat) : Trimmed (elseIfLabel n) := by
  have chars : (elseIfLabel n).toList = ['E', 'l', 's', 'e', ' ', 'I', 'f', ' '] ++ Nat.toDigits 10 n := by
    simp [elseIfLabel, Decimal.writeNat]
  rw [Text.trimmed_iff, chars]
  refine ⟨fun c first => ?_, fun c last => ?_⟩
  · rw [List.cons_append, List.head?_cons, Option.some.injEq] at first
    rw [← first]
    decide
  · rw [List.getLast?_append_of_ne_nil _ Nat.toDigits_ne_nil] at last
    have number := (Text.trimmed_iff.1 (Text.trimmed_writeNat n)).last c
    rw [Decimal.writeNat, String.toList_ofList] at number
    exact number last

theorem isOlderLabel_elseIfLabel (n : Nat) : Workflow.isOlderLabel (elseIfLabel n) = false := by
  have chars : (elseIfLabel n).toList
      = 'E' :: (['l', 's', 'e', ' ', 'I', 'f', ' '] ++ Nat.toDigits 10 n) := by
    simp [elseIfLabel, Decimal.writeNat]
  have first : (lower (elseIfLabel n)).toList.head? = some 'e' := by
    have capital : Text.lowerChar 'E' = ['e'] := by decide +kernel
    rw [lower, String.toList_ofList, chars, Text.lowerFrom, if_neg (by decide), capital]
    rfl
  have other {s : String} (h : s.toList.head? ≠ some 'e') : lower (elseIfLabel n) ≠ s :=
    fun same => h (same ▸ first)
  have notYes := other (s := "yes") (by decide)
  have notNo := other (s := "no") (by decide)
  simp [Workflow.isOlderLabel, notYes, notNo]

/-- The label of a handle is not empty, has no blanks around it and is none of the older ones. -/
theorem label_spec (handle : String) (position : Nat) :
    (Trimmed (label handle position) ∧ label handle position ≠ "")
      ∧ Workflow.isOlderLabel (label handle position) = false := by
  have first : (Trimmed "If" ∧ "If" ≠ "") ∧ Workflow.isOlderLabel "If" = false := by decide +kernel
  have last : (Trimmed "Else" ∧ "Else" ≠ "") ∧ Workflow.isOlderLabel "Else" = false := by decide +kernel
  have between (n : Nat) : (Trimmed (elseIfLabel n) ∧ elseIfLabel n ≠ "")
      ∧ Workflow.isOlderLabel (elseIfLabel n) = false :=
    ⟨⟨trimmed_elseIfLabel n, Text.append_ne_empty_left (by decide) _⟩, isOlderLabel_elseIfLabel n⟩
  unfold label labelOfClause
  split
  · exact first
  · split
    · exact last
    · split
      · exact between _
      · split
        · exact first
        · exact between _

end Handle

namespace Condition

/-- The label of a branch is not empty, has no blanks around it and is none of the older ones. -/
theorem labelAt?_spec {clauses : List Clause} {handle s : String}
    (h : labelAt? clauses handle = some s) :
    (Trimmed s ∧ s ≠ "") ∧ Workflow.isOlderLabel s = false := by
  obtain ⟨b, found, rfl⟩ := Option.map_eq_some_iff.1 h
  have made : ∃ handle position, b.label = Handle.label handle position := by
    rcases mem_branches (List.mem_of_find?_eq_some found) with ⟨c, -, position, rfl⟩ | rfl
    · exact ⟨c.id, position, rfl⟩
    · exact ⟨Handle.elseBranch, 0, rfl⟩
  obtain ⟨handle, position, made⟩ := made
  exact made ▸ Handle.label_spec handle position

end Condition

/-! ## Edges -/

namespace EdgeData

/-- The declared fields with what is stored for them. -/
def members (d : EdgeData) : List (Key × Document) :=
  keys.zip [.ofText? d.branch, .bool d.highlighted]

theorem document_eq (d : EdgeData) : d.document .dropped
    = .object (Nulls.dropped.members (Fields.overlay (Fields.declared d.members) d.extra)) := rfl

end EdgeData

namespace Workflow

variable {source : Node} {e : Edge}

theorem apart_restoreData (source : Node) (row : Fields) :
    Fields.Apart (restoreData source row).members (restoreData source row).extra := by
  have absent {key : String} (dropped : key ∈ ["branch", "highlighted"]) :
      Fields.get? (restoreData source row).extra key = none := by
    show Fields.get? (Fields.without row ["branch", "highlighted"]) key = none
    rw [Fields.get?_without, if_pos dropped]
  have proper : Key.Proper EdgeData.keys := by decide
  refine ⟨proper, ?_, ?_⟩
  · simpa [EdgeData.members, EdgeData.keys] using ⟨absent (by decide), absent (by decide)⟩
  · simpa [EdgeData.members, EdgeData.keys] using fun _ => absent (by decide)

/-- What the stored display data of an edge are restored as. -/
theorem restoreData_document {d : EdgeData} (apart : Fields.Apart d.members d.extra) (source : Node) :
    restoreData source (d.document .dropped).fields =
      { branch := if source.isA .condition then d.branch.map currentHandle else d.branch
        highlighted := d.highlighted
        extra := Fields.kept d.extra } := by
  have stated : (EdgeData.branchKey, Document.ofText? d.branch) ∈ d.members :=
    List.mem_of_getElem? (i := 0) rfl
  have shown : (EdgeData.highlightedKey, Document.bool d.highlighted) ∈ d.members :=
    List.mem_of_getElem? (i := 1) rfl
  have branch : Fields.getD (d.document .dropped).fields "branch" = .ofText? d.branch :=
    apart.getD stated
  have highlighted : Fields.getD (d.document .dropped).fields "highlighted" = .bool d.highlighted :=
    apart.getD shown
  have rest : Fields.without (d.document .dropped).fields ["branch", "highlighted"]
      = Fields.kept d.extra := apart.without
  rw [restoreData, branch, highlighted, rest]
  cases d.branch <;> simp [Document.ofText?, Document.isVoid]

theorem currentHandle_currentHandle (handle : String) :
    currentHandle (currentHandle handle) = currentHandle handle := by
  obtain ⟨notYes, notNo⟩ := currentHandle_ne handle
  generalize currentHandle handle = h at notYes notNo ⊢
  rw [currentHandle, if_neg notYes, if_neg notNo]

/-- Display data that were restored are restored from what is stored, and stored in the same way. -/
theorem document_restoreData (source : Node) (row : Fields) :
    (restoreData source ((restoreData source row).document .dropped).fields).document .dropped
      = (restoreData source row).document .dropped := by
  have apart := apart_restoreData source row
  rw [restoreData_document apart]
  have branch : (if source.isA .condition then (restoreData source row).branch.map currentHandle
      else (restoreData source row).branch) = (restoreData source row).branch := by
    rw [restoreData]
    split
    · simp [Function.comp_def, currentHandle_currentHandle]
    · rfl
  rw [branch]
  exact congrArg Document.object apart.members_kept

/-- The members of an edge that are stored if they hold something. -/
def storedEdge (e : Edge) : Fields :=
  [("id", .text e.id), ("source", .text e.source), ("target", .text e.target),
   ("sourceHandle", .ofText? e.sourceHandle), ("targetHandle", .ofText? e.targetHandle),
   ("label", .ofText? e.label), ("animated", .bool e.animated), ("data", e.data.document .dropped)]

theorem nodup_storedEdge (e : Edge) : (Fields.keys (storedEdge e)).Nodup := by
  show ["id", "source", "target", "sourceHandle", "targetHandle", "label", "animated", "data"].Nodup
  decide

theorem getD_storedEdge (e : Edge) (key : String) :
    Fields.getD (e.document .dropped).fields key = Fields.getD (storedEdge e) key :=
  Fields.getD_members (nodup_storedEdge e) key

theorem getEither_storedEdge (e : Edge) {written other : String}
    (absent : Fields.get? (storedEdge e) other = none) :
    Fields.getEither (e.document .dropped).fields written other
      = Fields.getD (storedEdge e) written := by
  have noOther : Fields.getD (e.document .dropped).fields other = .null := by
    rw [getD_storedEdge, Fields.getD, absent]
    rfl
  rw [← getD_storedEdge, Fields.getEither, noOther, Fields.getD]
  cases Fields.get? (e.document .dropped).fields written <;> rfl

/-- What a stored edge is restored as from a node. -/
theorem restoreEdge_document (source : Node) (target : String) (e : Edge) :
    restoreEdge source target (e.document .dropped).fields =
      (let handle := (Document.ofText? e.sourceHandle).trimmed?
       let sourceHandle := if source.isA .condition then handle.map currentHandle else handle
       { id := (Document.text e.id).trimmed
         source := source.id
         target
         sourceHandle
         targetHandle := (Document.ofText? e.targetHandle).trimmed?
         label := restoreLabel source sourceHandle (Document.ofText? e.label).trimmed
         animated := e.animated
         data := restoreData source (e.data.document .dropped).fields }) := by
  have id : Fields.getD (e.document .dropped).fields "id" = .text e.id := getD_storedEdge e _
  have sourceHandle : Fields.getEither (e.document .dropped).fields "sourceHandle" "source_handle"
      = .ofText? e.sourceHandle := getEither_storedEdge e rfl
  have targetHandle : Fields.getEither (e.document .dropped).fields "targetHandle" "target_handle"
      = .ofText? e.targetHandle := getEither_storedEdge e rfl
  have label : Fields.getD (e.document .dropped).fields "label" = .ofText? e.label :=
    getD_storedEdge e _
  have animated : Fields.getD (e.document .dropped).fields "animated" = .bool e.animated :=
    getD_storedEdge e _
  have data : Fields.getD (e.document .dropped).fields "data" = e.data.document .dropped :=
    getD_storedEdge e _
  have switch : notFalse (.bool e.animated) = e.animated := by cases e.animated <;> rfl
  unfold restoreEdge
  dsimp only
  rw [id, sourceHandle, targetHandle, label, animated, data, switch]

/-- A label that was restored is restored from what is stored. -/
theorem restoreLabel_restoreLabel (source : Node) (handle : Option String) {label : String}
    (trimmed : Trimmed label) :
    restoreLabel source handle (Document.ofText? (restoreLabel source handle label)).trimmed
      = restoreLabel source handle label := by
  have kept : (Document.ofText? (if label.isEmpty then none else some label)).trimmed = label := by
    split
    · next void =>
      rw [String.isEmpty_iff.1 void]
      exact Document.trimmed_null
    · exact trimmed
  cases handle with
  | none => simp only [restoreLabel, kept]
  | some h =>
    cases anew : source.isA .condition && (label.isEmpty || isOlderLabel label) with
    | false => simp only [restoreLabel, anew, Bool.false_eq_true, if_false, kept]
    | true =>
      have made : restoreLabel source (some h) label
          = Condition.labelAt? source.config.clauses h := by
        simp only [restoreLabel, anew, if_true]
      rw [made]
      obtain ⟨condition, -⟩ := Bool.and_eq_true_iff.1 anew
      cases found : Condition.labelAt? source.config.clauses h with
      | none =>
        rw [Document.ofText?, Document.trimmed_null]
        simp [restoreLabel, condition, found]
      | some l =>
        obtain ⟨⟨same, nonempty⟩, current⟩ := Condition.labelAt?_spec found
        have text : (Document.ofText? (some l)).trimmed = l := same
        rw [text]
        simp [restoreLabel, current, nonempty]

theorem tidy_currentHandle {t : Option String} (h : Document.Tidy t) :
    Document.Tidy (t.map currentHandle) := by
  intro s mapped
  obtain ⟨handle, found, rfl⟩ := Option.map_eq_some_iff.1 mapped
  unfold currentHandle
  split
  · decide +kernel
  · split
    · decide +kernel
    · exact h _ found

end Workflow

/-- An edge that is restored from its source as something that is stored in the same way. -/
structure Edge.Steady (source : Node) (e : Edge) : Prop where
  named : Trimmed e.id ∧ e.id ≠ ""
  same : (Workflow.restoreEdge source e.target (e.document .dropped).fields).document .dropped
    = e.document .dropped

namespace Workflow

variable {source : Node} {e : Edge}

theorem steady_edge_of_parts (named : Trimmed e.id ∧ e.id ≠ "") (leaves : source.id = e.source)
    (sourceHandle : Document.Tidy e.sourceHandle) (targetHandle : Document.Tidy e.targetHandle)
    (current : source.isA .condition = true → e.sourceHandle.map currentHandle = e.sourceHandle)
    (label : restoreLabel source e.sourceHandle (Document.ofText? e.label).trimmed = e.label)
    (data : (restoreData source (e.data.document .dropped).fields).document .dropped
      = e.data.document .dropped) : e.Steady source := by
  refine ⟨named, ?_⟩
  have id : (Document.text e.id).trimmed = e.id := named.1
  have handle : (if source.isA .condition then e.sourceHandle.map currentHandle else e.sourceHandle)
      = e.sourceHandle := by
    split
    · next condition => exact current condition
    · rfl
  rw [restoreEdge_document]
  dsimp only
  rw [id, leaves, Document.trimmed?_ofText? sourceHandle, handle, Document.trimmed?_ofText? targetHandle,
    label, Edge.document, Edge.document, data]

/-- An edge without label and display data that leaves a block without clauses is steady. -/
theorem steady_edge_of_bare (named : Trimmed e.id ∧ e.id ≠ "") (leaves : source.id = e.source)
    (sourceHandle : Document.Tidy e.sourceHandle) (targetHandle : Document.Tidy e.targetHandle)
    (other : source.isA .condition = false) (label : e.label = none) (data : e.data = {}) :
    e.Steady source := by
  refine steady_edge_of_parts named leaves sourceHandle targetHandle ?_ ?_ ?_
  · intro condition
    exact absurd condition (by simp [other])
  · rw [label, Document.ofText?, Document.trimmed_null]
    cases e.sourceHandle <;> simp [restoreLabel, other]
  · have apart : Fields.Apart ({} : EdgeData).members [] := by
      have proper : Key.Proper EdgeData.keys := by decide
      exact ⟨proper, fun _ _ => rfl, fun _ _ _ => rfl⟩
    rw [data, restoreData_document apart]
    simp only [Option.map_none, ite_self]
    rfl

/-- What is restored from an item is restored, under its identifier, from what is then stored. -/
theorem steady_restoreEdge (source : Node) (target : String) (row : Fields) {id : String}
    (named : Trimmed id ∧ id ≠ "") :
    ({ restoreEdge source target row with id } : Edge).Steady source := by
  unfold restoreEdge
  dsimp only
  have tidy := Document.tidy_trimmed? (Fields.getEither row "sourceHandle" "source_handle")
  have targetTidy := Document.tidy_trimmed? (Fields.getEither row "targetHandle" "target_handle")
  generalize (Fields.getEither row "sourceHandle" "source_handle").trimmed? = handle at tidy ⊢
  generalize (Fields.getEither row "targetHandle" "target_handle").trimmed? = targetHandle
    at targetTidy ⊢
  have label := restoreLabel_restoreLabel source
    (if source.isA .condition then handle.map currentHandle else handle)
    (Document.trimmed_trimmed (Fields.getD row "label"))
  have data := document_restoreData source (Fields.getD row "data").fields
  refine steady_edge_of_parts named rfl ?_ targetTidy ?_ label data
  · show Document.Tidy (if source.isA .condition then handle.map currentHandle else handle)
    split
    · exact tidy_currentHandle tidy
    · exact tidy
  · intro condition
    simp [condition, Function.comp_def, currentHandle_currentHandle]

/-- What is restored of an edge depends on the identifier, the kind and the clauses of its source. -/
theorem restoreEdge_congr {source' : Node} (id : source'.id = source.id) (kind : source'.kind = source.kind)
    (clauses : source'.config.clauses = source.config.clauses) (target : String) (row : Fields) :
    restoreEdge source' target row = restoreEdge source target row := by
  have isA : source'.isA .condition = source.isA .condition := by rw [Node.isA, Node.isA, kind]
  have label : restoreLabel source' = restoreLabel source := by
    funext handle text
    unfold restoreLabel
    rw [isA, clauses]
  unfold restoreEdge restoreData
  rw [isA, id, label]

end Workflow

end Journey
