import Journey.Proofs.Config.Decoded
import Journey.Proofs.Editor.Clipboard
import Journey.Proofs.Workflow.Reread

/-!
# Journey.Proofs.Workflow.Decoded -- what passes the check is stored and passes it again

The check of a stored workflow accepts a member under two spellings, a number as a text and much else,
while what is written has one form.  So a document is not written as it was read; but what is read from it
is read again from what is written, and no identifier is drawn anew.  The one thing that is not there
twice is the open length of a pause, which is written out as the one unit that it counts for
(`Workflow.stated`).

Members of settings, clauses, counters and display data that hold nothing are left out when they are
written, and one that holds nothing under the written spelling hides one under the other; so these objects
are asked to be firm.

Main statements: decoding undoes encoding for every workflow that lasts (`decode_document_of_lasts`), and what
is read from a firm document is read again from what is written (`decode_document`).
-/

namespace Journey

set_option autoImplicit false

/-! ## Counters and display data -/

namespace Counters

theorem lasts_of_decode {row : Fields} {c : Counters} (firm : row.Firm) (h : decode row = .valid c) :
    Fields.Lasts c.members c.extra :=
  ⟨apart_of_decode firm.solid h, (decode_eq_valid_iff.1 h).2.2 ▸ firm.filter _⟩

theorem decode_lasts {c : Counters} (h : Fields.Lasts c.members c.extra) :
    Checked.object decode (c.document .dropped) = .valid c := by
  rw [document_eq]
  show decode _ = _
  rw [decode_stored h.toApart, h.firm.kept_eq]

end Counters

namespace EdgeData

theorem decode_eq_valid_iff {row : Fields} {d : EdgeData} :
    decode row = .valid d ↔
      Checked.field row branchKey (.orNull .text) none = .valid d.branch
        ∧ Checked.field row highlightedKey .flag false = .valid d.highlighted
        ∧ d.extra = Key.unclaimed keys row := by
  rw [eq_comm (a := d.extra)]
  cases d
  simp [decode, Functor.map, Seq.seq, Checked.seq_eq_valid_iff, Checked.map_eq_valid_iff,
    -Bool.exists_bool]

theorem proper_keys : Key.Proper keys := by decide

theorem lasts_of_decode {row : Fields} {c : EdgeData} (firm : row.Firm) (h : decode row = .valid c) :
    Fields.Lasts c.members c.extra := by
  obtain ⟨branch, -, extra⟩ := decode_eq_valid_iff.1 h
  rw [extra]
  refine Fields.lasts_unclaimed c.members proper_keys ?_ firm
  simpa [members, keys] using Checked.absent_of_field firm.solid branch

theorem decode_lasts {c : EdgeData} (h : Fields.Lasts c.members c.extra) :
    Checked.object decode (c.document .dropped) = .valid c := by
  have unclaimed : Key.unclaimed keys _ = _ := h.unclaimed_eq
  rw [document_eq]
  show decode _ = _
  rw [decode, unclaimed,
    Checked.field_of_apart h.toApart (List.mem_of_getElem? (i := 0) rfl) (Checked.reads_text? c.branch),
    Checked.field_of_apart h.toApart (List.mem_of_getElem? (i := 1) rfl) (Checked.reads_flag c.highlighted)]
  rfl

end EdgeData

/-! ## Edges -/

namespace Edge

/-- The fields of an edge with what is written for them. -/
def members (e : Edge) : List (Key × Document) :=
  [(.word "id", .text e.id), (.word "source", .text e.source), (.word "target", .text e.target),
   (⟨"sourceHandle", "source_handle"⟩, .ofText? e.sourceHandle),
   (⟨"targetHandle", "target_handle"⟩, .ofText? e.targetHandle), (.word "label", .ofText? e.label),
   (.word "animated", .bool e.animated), (.word "data", e.data.document .dropped)]

theorem lasts_members (e : Edge) : Fields.Lasts e.members [] := by
  have proper : Key.Proper (e.members.map (·.1)) := by
    show Key.Proper [.word "id", .word "source", .word "target", ⟨"sourceHandle", "source_handle"⟩,
      ⟨"targetHandle", "target_handle"⟩, .word "label", .word "animated", .word "data"]
    decide
  exact Fields.lasts_nil proper

/-- No foreign member of the display data is lost, or takes the place of a field, when it is written. -/
def Lasts (e : Edge) : Prop := Fields.Lasts e.data.members e.data.extra

/-- An edge is read from what is written for it. -/
theorem decode_lasts {e : Edge} (h : e.Lasts) : decode (e.document .dropped) = .valid e := by
  have apart := e.lasts_members.toApart
  show decodeRow (Nulls.dropped.members (Fields.overlay (Fields.declared e.members) [])) = _
  have field {α : Type} {key : Key} {check : Document → Checked α} {default a : α} {d : Document}
      (position : Nat) (there : e.members[position]? = some (key, d))
      (reads : Checked.Reads check default d a) :=
    Checked.field_of_apart apart (List.mem_of_getElem? there) reads
  have required {key : Key} {s : String} (position : Nat)
      (there : e.members[position]? = some (key, .text s)) :=
    Checked.required_of_apart apart (List.mem_of_getElem? there) rfl (Checked.text_text s)
  rw [decodeRow, field 0 rfl (Checked.reads_text e.id), required 1 rfl, required 2 rfl,
    field 3 rfl (Checked.reads_text? e.sourceHandle), field 4 rfl (Checked.reads_text? e.targetHandle),
    field 5 rfl (Checked.reads_text? e.label), field 6 rfl (Checked.reads_flag e.animated),
    field 7 rfl (EdgeData.decode_lasts h)]
  rfl

theorem decodeRow_eq_valid_iff {row : Fields} {e : Edge} :
    decodeRow row = .valid e ↔
      Checked.field row (.word "id") .text "" = .valid e.id
        ∧ Checked.required row (.word "source") .text = .valid e.source
        ∧ Checked.required row (.word "target") .text = .valid e.target
        ∧ Checked.field row ⟨"sourceHandle", "source_handle"⟩ (.orNull .text) none = .valid e.sourceHandle
        ∧ Checked.field row ⟨"targetHandle", "target_handle"⟩ (.orNull .text) none = .valid e.targetHandle
        ∧ Checked.field row (.word "label") (.orNull .text) none = .valid e.label
        ∧ Checked.field row (.word "animated") .flag true = .valid e.animated
        ∧ Checked.field row (.word "data") (.object EdgeData.decode) {} = .valid e.data := by
  cases e
  simp [decodeRow, Functor.map, Seq.seq, Checked.seq_eq_valid_iff, Checked.map_eq_valid_iff, and_assoc,
    -Bool.exists_bool]

/-- An edge that was read with firm display data lasts. -/
theorem lasts_of_decode {d : Document} {e : Edge} (firm : (Fields.getD d.fields "data").fields.Firm)
    (h : decode d = .valid e) : e.Lasts := by
  obtain ⟨-, -, -, -, -, -, -, data⟩ := decodeRow_eq_valid_iff.1 (Checked.of_object h)
  rcases Checked.of_word data with default | read
  · rw [Lasts, default]
    exact Fields.lasts_nil EdgeData.proper_keys
  · exact EdgeData.lasts_of_decode firm (Checked.of_object read)

end Edge

/-! ## Nodes -/

namespace Node

/-- The node with an open length written out. -/
def stated (n : Node) : Node := { n with config := n.config.stated }

theorem document_stated (nulls : Nulls) (n : Node) : n.stated.document nulls = n.document nulls := by
  have kind : n.stated.kind = n.kind := n.config.kind_stated
  have config : n.stated.config.document nulls = n.config.document nulls :=
    n.config.document_stated nulls
  rw [document, document, kind, config]
  rfl

/-- The fields of a node with what is written for them. -/
def members (n : Node) : List (Key × Document) :=
  [(.word "id", .text n.id), (.word "title", .text n.title), (.word "position", n.position.document),
   (.word "status", .text n.status.name),
   (.word "meta", (n.counters.map (Counters.document .dropped)).getD .null),
   (.word "kind", .text n.kind.name), (.word "config", n.config.document .dropped)]

theorem lasts_members (n : Node) : Fields.Lasts n.members [] := by
  have proper : Key.Proper (n.members.map (·.1)) := by
    show Key.Proper [.word "id", .word "title", .word "position", .word "status", .word "meta",
      .word "kind", .word "config"]
    decide
  exact Fields.lasts_nil proper

/-- No foreign member of the settings or the counters is lost, or takes the place of a field, when it is
written. -/
structure Lasts (n : Node) : Prop where
  config : n.config.Lasts
  counters : ∀ c, n.counters = some c → Fields.Lasts c.members c.extra

theorem reads_position (p : Position) :
    Checked.Reads (.object Position.decode) {} p.document p := by
  refine Checked.reads_object ?_
  simp [Position.decode, Checked.field, Key.find?_word, Fields.get?_cons]
  rfl

theorem reads_counters {n : Node} (h : n.Lasts) :
    Checked.Reads (.orNull (.object Counters.decode)) none
      ((n.counters.map (Counters.document .dropped)).getD .null) n.counters := by
  cases counted : n.counters with
  | none => rfl
  | some c =>
    have read := Counters.decode_lasts (h.counters c counted)
    exact congrArg (Checked.map some) read

/-- A node is read from what is written for it. -/
theorem decode_lasts {n : Node} (h : n.Lasts) : decode (n.document .dropped) = .valid n.stated := by
  have apart := n.lasts_members.toApart
  generalize written : Nulls.dropped.members (Fields.overlay (Fields.declared n.members) []) = row
  have field {α : Type} {key : Key} {check : Document → Checked α} {default a : α} {d : Document}
      (position : Nat) (there : n.members[position]? = some (key, d))
      (reads : Checked.Reads check default d a) : Checked.field row key check default = .valid a :=
    written ▸ Checked.field_of_apart apart (List.mem_of_getElem? there) reads
  have kind : storedKind? row = some n.kind := by
    have found := apart.find? (List.mem_of_getElem? (i := 5) rfl)
    rw [written, Key.find?_word] at found
    obtain ⟨d, there, same⟩ := Option.map_eq_some_iff.1 found
    cases same
    rw [storedKind?, there]
    exact NodeKind.named?_name n.kind
  have config : Checked.Reads (.object (Config.decode n.kind)) (Config.empty n.kind)
      (n.config.document .dropped) n.config.stated := Config.decode_lasts h.config
  show decode (.object (Nulls.dropped.members (Fields.overlay (Fields.declared n.members) []))) = _
  rw [written, decode, kind]
  show (decodeAs n.kind row).under n.kind.name = _
  rw [decodeAs, field 0 rfl (Checked.reads_text n.id), field 1 rfl (Checked.reads_text n.title),
    field 2 rfl (reads_position n.position),
    field 3 rfl (Checked.reads_choice (NodeStatus.named?_name n.status)),
    field 4 rfl (reads_counters h), field 6 rfl config]
  rfl

/-- The objects of a stored node that keep what they do not know are firm: its settings, those of a
condition with their clauses, and its counters. -/
structure Firm (d : Document) : Prop where
  config : (Fields.getD d.fields "config").fields.Firm
  counters : (Fields.getD d.fields "meta").fields.Firm
  clauses : storedKind? d.fields = some .condition →
    ∀ clause ∈ (Fields.getD (Fields.getD d.fields "config").fields "clauses").items, clause.fields.Firm

instance (d : Document) : Decidable (Firm d) :=
  decidable_of_iff
    ((Fields.getD d.fields "config").fields.Firm ∧ (Fields.getD d.fields "meta").fields.Firm
      ∧ (storedKind? d.fields = some .condition →
          ∀ clause ∈ (Fields.getD (Fields.getD d.fields "config").fields "clauses").items,
            clause.fields.Firm))
    ⟨fun all => ⟨all.1, all.2.1, all.2.2⟩, fun firm => ⟨firm.config, firm.counters, firm.clauses⟩⟩

theorem decodeAs_eq_valid_iff {kind : NodeKind} {row : Fields} {n : Node} :
    decodeAs kind row = .valid n ↔
      Checked.field row (.word "id") .text "" = .valid n.id
        ∧ Checked.field row (.word "title") .text "" = .valid n.title
        ∧ Checked.field row (.word "position") (.object Position.decode) {} = .valid n.position
        ∧ Checked.field row (.word "status") (.choice NodeStatus.named?) .draft = .valid n.status
        ∧ Checked.field row (.word "meta") (.orNull (.object Counters.decode)) none = .valid n.counters
        ∧ Checked.field row (.word "config") (.object (Config.decode kind)) (Config.empty kind)
          = .valid n.config := by
  cases n
  simp [decodeAs, Functor.map, Seq.seq, Checked.seq_eq_valid_iff, Checked.map_eq_valid_iff, and_assoc]

/-- A node that was read from a firm item lasts. -/
theorem lasts_of_decode {d : Document} {n : Node} (firm : Firm d) (h : decode d = .valid n) : n.Lasts := by
  have decoded : ∃ kind, storedKind? d.fields = some kind ∧ decodeAs kind d.fields = .valid n := by
    cases d with
    | object row =>
      rw [decode] at h
      cases named : storedKind? row with
      | none =>
        rw [named] at h
        cases h
      | some kind =>
        rw [named] at h
        exact ⟨kind, named, Checked.under_eq_valid_iff.1 h⟩
    | _ => cases h
  obtain ⟨kind, named, decoded⟩ := decoded
  obtain ⟨-, -, -, -, counters, config⟩ := decodeAs_eq_valid_iff.1 decoded
  constructor
  · rcases Checked.of_word config with default | read
    · exact default ▸ Config.lasts_empty kind
    · exact Config.lasts_of_decode firm.config (fun is => firm.clauses (is ▸ named))
        (Checked.of_object read)
  · intro c counted
    rcases Checked.of_word counters with default | read
    · rw [counted] at default
      cases default
    · rcases Checked.of_orNull read with default | ⟨b, same, read⟩
      · rw [counted] at default
        cases default
      · rw [counted] at same
        cases same
        exact Counters.lasts_of_decode firm.counters (Checked.of_object read)

end Node

/-! ## Identifiers -/

namespace Fresh

variable {α β : Type} {ids : IdSource}

/-- What a list of computations gives is given by each of them in its turn. -/
theorem exists_of_mem_run_mapM {f : α → Fresh β} {as : List α} {b : β}
    (mem : b ∈ ((as.mapM f).run ids).1) : ∃ a ∈ as, ∃ ids', b = ((f a).run ids').1 := by
  induction as generalizing ids with
  | nil => cases mem
  | cons a as ih =>
    rw [Clip.run_mapM_cons] at mem
    rcases List.mem_cons.1 mem with here | there
    · exact ⟨a, List.mem_cons_self, ids, here⟩
    · obtain ⟨a', memA, found⟩ := ih there
      exact ⟨a', List.mem_cons_of_mem _ memA, found⟩

theorem run_mapM_self {f : α → Fresh α} {as : List α} (each : ∀ a ∈ as, ∀ ids, (f a).run ids = (a, ids)) :
    (as.mapM f).run ids = (as, ids) := by
  induction as generalizing ids with
  | nil => rfl
  | cons a as ih =>
    obtain ⟨first, rest⟩ := List.forall_mem_cons.1 each
    rw [Clip.run_mapM_cons, first, ih rest]

/-- An identifier is not empty, whether it was given or is new. -/
theorem run_orElse_ne_empty (given : String) {new : Fresh String} (named : ∀ ids, (new.run ids).1 ≠ "") :
    ((orElse given new).run ids).1 ≠ "" := by
  unfold orElse
  split
  · exact named ids
  · next full =>
    show given ≠ ""
    simpa using full

theorem run_nodeId_ne_empty (kind : String) (ids : IdSource) : ((nodeId kind).run ids).1 ≠ "" :=
  joined_ne_empty kind _

theorem run_edgeId_ne_empty (source target : String) (ids : IdSource) :
    ((edgeId source target).run ids).1 ≠ "" :=
  joined_ne_empty ("edge_" ++ source ++ "_" ++ target) _

theorem orElse_of_ne_empty {given : String} (named : given ≠ "") (new : Fresh String) :
    orElse given new = pure given := by
  rw [orElse, if_neg (by simpa using named)]

end Fresh

namespace Node

variable {n : Node} {ids : IdSource}

/-- An identified node has an identifier and is the same otherwise. -/
theorem exists_run_identify (n : Node) (ids : IdSource) :
    ∃ id, id ≠ "" ∧ (n.identify.run ids).1 = { n with id } :=
  ⟨_, Fresh.run_orElse_ne_empty n.id (Fresh.run_nodeId_ne_empty n.kind.name), rfl⟩

theorem run_identify_of_named (named : n.id ≠ "") : n.identify.run ids = (n, ids) := by
  rw [identify, Fresh.orElse_of_ne_empty named]
  rfl

theorem Lasts.identify (h : n.Lasts) (id : String) : ({ n with id } : Node).Lasts :=
  ⟨h.config, h.counters⟩

end Node

namespace Edge

variable {e : Edge} {ids : IdSource}

theorem exists_run_identify (e : Edge) (ids : IdSource) :
    ∃ id, id ≠ "" ∧ (e.identify.run ids).1 = { e with id } :=
  ⟨_, Fresh.run_orElse_ne_empty e.id (Fresh.run_edgeId_ne_empty e.source e.target), rfl⟩

theorem run_identify_of_named (named : e.id ≠ "") : e.identify.run ids = (e, ids) := by
  rw [identify, Fresh.orElse_of_ne_empty named]
  rfl

end Edge

/-! ## Workflows -/

namespace Workflow

variable {w : Workflow} {ids : IdSource}

/-- The workflow with the open lengths of pauses written out. -/
def stated (w : Workflow) : Workflow := { w with nodes := w.nodes.map Node.stated }

/-- The open length of a pause is not seen in what is stored. -/
theorem document_stated (w : Workflow) : w.stated.document = w.document := by
  have nodes : w.stated.nodes.map (Node.document .dropped) = w.nodes.map (Node.document .dropped) := by
    show (w.nodes.map Node.stated).map (Node.document .dropped) = _
    rw [List.map_map]
    exact List.map_congr_left fun n _ => n.document_stated .dropped
  rw [document, document, nodes]
  rfl

/-- The fields of a workflow with what is written for them. -/
def members (w : Workflow) : List (Key × Document) :=
  [(.word "id", .text w.id), (.word "name", .text w.name), (.word "status", .text w.status.name),
   (.word "version", .int w.version), (.word "nodes", .list (w.nodes.map (Node.document .dropped))),
   (.word "edges", .list (w.edges.map (Edge.document .dropped))), (.word "settings", .object w.settings),
   (⟨"runtimeMap", "runtime_map"⟩, .object w.runtimeMap)]

theorem lasts_members (w : Workflow) : Fields.Lasts w.members [] := by
  have proper : Key.Proper (w.members.map (·.1)) := by
    show Key.Proper [.word "id", .word "name", .word "status", .word "version", .word "nodes",
      .word "edges", .word "settings", ⟨"runtimeMap", "runtime_map"⟩]
    decide
  exact Fields.lasts_nil proper

/-- Every node and every edge has an identifier, and what they hold lasts. -/
structure Lasts (w : Workflow) : Prop where
  nodes : ∀ n ∈ w.nodes, n.id ≠ "" ∧ n.Lasts
  edges : ∀ e ∈ w.edges, e.id ≠ "" ∧ e.Lasts

/-- The workflow as a draft in which nothing is left out. -/
def draft (w : Workflow) : Draft :=
  { id := some w.id, name := w.name, status := w.status, version := w.version, nodes := w.nodes,
    edges := w.edges, settings := w.settings, runtimeMap := w.runtimeMap }

/-- What a draft is completed to: its nodes are identified first, and then its edges. -/
theorem run_complete (w : Workflow) (ids : IdSource) :
    let nodes := (w.nodes.mapM Node.identify).run ids
    let edges := (w.edges.mapM Edge.identify).run nodes.2
    w.draft.complete.run ids = ({ w with nodes := nodes.1, edges := edges.1 }, edges.2) := rfl

/-- Where everything has an identifier, none is drawn. -/
theorem run_complete_of_named (nodes : ∀ n ∈ w.nodes, n.id ≠ "") (edges : ∀ e ∈ w.edges, e.id ≠ "") :
    w.draft.complete.run ids = (w, ids) := by
  rw [run_complete, Fresh.run_mapM_self fun n mem _ => Node.run_identify_of_named (nodes n mem),
    Fresh.run_mapM_self fun e mem _ => Edge.run_identify_of_named (edges e mem)]

/-- A workflow is read from what is written for it. -/
theorem decode_lasts (h : w.Lasts) : decode w.document = .valid w.stated.draft.complete := by
  have apart := w.lasts_members.toApart
  have field {α : Type} {key : Key} {check : Document → Checked α} {default a : α} {d : Document}
      (position : Nat) (there : w.members[position]? = some (key, d))
      (reads : Checked.Reads check default d a) :=
    Checked.field_of_apart apart (List.mem_of_getElem? there) reads
  have nodes : ∀ n ∈ w.nodes, Node.decode (n.document .dropped) = .valid n.stated :=
    fun n mem => Node.decode_lasts (h.nodes n mem).2
  have edges : ∀ e ∈ w.edges, Edge.decode (e.document .dropped) = .valid e :=
    fun e mem => Edge.decode_lasts (h.edges e mem).2
  have id : Checked.Reads (fun d => .map some (Checked.text d)) none (.text w.id) (some w.id) := rfl
  have row : Draft.decodeRow (Nulls.dropped.members (Fields.overlay (Fields.declared w.members) []))
      = .valid w.stated.draft := by
    rw [Draft.decodeRow, field 0 rfl id, field 1 rfl (Checked.reads_text w.name),
      field 2 rfl (Checked.reads_choice (WorkflowStatus.named?_name w.status)),
      field 3 rfl (show Checked.Reads .whole 1 (.int w.version) w.version from rfl),
      field 4 rfl (Checked.reads_list Node.stated nodes), field 5 rfl (Checked.reads_list (fun e => e) edges),
      field 6 rfl (Checked.reads_object rfl), field 7 rfl (Checked.reads_object rfl), List.map_id']
    rfl
  show (Draft.decodeRow (Nulls.dropped.members (Fields.overlay (Fields.declared w.members) []))).map
    Draft.complete = _
  rw [row]
  rfl

/-- Decoding undoes encoding: a workflow is read from its document as it is, with the open lengths of pauses
written out, and no identifier is drawn. -/
theorem decode_document_of_lasts (h : w.Lasts) :
    ∃ x, decode w.document = .valid x ∧ ∀ ids, x.run ids = (w.stated, ids) := by
  refine ⟨w.stated.draft.complete, decode_lasts h, fun ids => run_complete_of_named ?_ ?_⟩
  · intro n mem
    obtain ⟨m, memM, rfl⟩ := List.mem_map.1 mem
    exact (h.nodes m memM).1
  · exact fun e mem => (h.edges e mem).1

/-- A completed draft has the nodes and the edges of the draft, identified. -/
theorem parts_complete (d : Draft) (ids : IdSource) :
    let nodes := (d.nodes.mapM Node.identify).run ids
    (d.complete.run ids).1.nodes = nodes.1
      ∧ (d.complete.run ids).1.edges = ((d.edges.mapM Edge.identify).run nodes.2).1 := by
  obtain ⟨id, _, _, _, nodes, edges, _, _⟩ := d
  cases id with
  | none => exact ⟨rfl, rfl⟩
  | some id => exact ⟨rfl, rfl⟩

/-- What is completed lasts if what was read does. -/
theorem lasts_complete {d : Draft} (nodes : ∀ n ∈ d.nodes, n.Lasts) (edges : ∀ e ∈ d.edges, e.Lasts)
    (ids : IdSource) : (d.complete.run ids).1.Lasts := by
  obtain ⟨ofNodes, ofEdges⟩ := parts_complete d ids
  constructor
  · intro n mem
    rw [ofNodes] at mem
    obtain ⟨m, memM, ids', rfl⟩ := Fresh.exists_of_mem_run_mapM mem
    obtain ⟨id, named, same⟩ := m.exists_run_identify ids'
    rw [same]
    exact ⟨named, (nodes m memM).identify id⟩
  · intro e mem
    rw [ofEdges] at mem
    obtain ⟨f, memF, ids', rfl⟩ := Fresh.exists_of_mem_run_mapM mem
    obtain ⟨id, named, same⟩ := f.exists_run_identify ids'
    rw [same]
    exact ⟨named, edges f memF⟩

/-- The objects of a stored workflow that keep what they do not know are firm. -/
structure Firm (d : Document) : Prop where
  nodes : ∀ item ∈ (Fields.getD d.fields "nodes").items, Node.Firm item
  edges : ∀ item ∈ (Fields.getD d.fields "edges").items, (Fields.getD item.fields "data").fields.Firm

theorem decodeRow_eq_valid_iff {row : Fields} {d : Draft} :
    Draft.decodeRow row = .valid d ↔
      Checked.field row (.word "id") (fun d => .map some (Checked.text d)) none = .valid d.id
        ∧ Checked.field row (.word "name") .text untitled = .valid d.name
        ∧ Checked.field row (.word "status") (.choice WorkflowStatus.named?) .draft = .valid d.status
        ∧ Checked.field row (.word "version") .whole 1 = .valid d.version
        ∧ Checked.field row (.word "nodes") (.list Node.decode) [] = .valid d.nodes
        ∧ Checked.field row (.word "edges") (.list Edge.decode) [] = .valid d.edges
        ∧ Checked.field row (.word "settings") (.object .valid) [] = .valid d.settings
        ∧ Checked.field row ⟨"runtimeMap", "runtime_map"⟩ (.object .valid) [] = .valid d.runtimeMap := by
  cases d
  simp [Draft.decodeRow, Functor.map, Seq.seq, Checked.seq_eq_valid_iff, Checked.map_eq_valid_iff, and_assoc]

/-- What the check of a stored workflow accepts, it accepts again when it is stored, and reads the same
workflow from it; no identifier is drawn anew.  The open length of a pause is written out as the one unit
that it is, which is not seen in what is stored next.  The objects that keep what they do not know have to
be firm. -/
theorem decode_document (d : Document) {x : Fresh Workflow} (read : decode d = .valid x) (firm : Firm d)
    (ids : IdSource) :
    let w := (x.run ids).1
    ∃ y, decode w.document = .valid y ∧ (∀ ids', y.run ids' = (w.stated, ids'))
      ∧ w.stated.document = w.document := by
  intro w
  obtain ⟨draft, row, rfl⟩ := Checked.map_eq_valid_iff.1 read
  obtain ⟨-, -, -, -, nodes, edges, -⟩ := decodeRow_eq_valid_iff.1 (Checked.of_object row)
  have nodesLast : ∀ n ∈ draft.nodes, n.Lasts := by
    intro n mem
    rcases Checked.of_word nodes with default | items
    · rw [default] at mem
      cases mem
    · obtain ⟨item, there, decoded⟩ := Checked.of_list items n mem
      exact Node.lasts_of_decode (firm.nodes item there) decoded
  have edgesLast : ∀ e ∈ draft.edges, e.Lasts := by
    intro e mem
    rcases Checked.of_word edges with default | items
    · rw [default] at mem
      cases mem
    · obtain ⟨item, there, decoded⟩ := Checked.of_list items e mem
      exact Edge.lasts_of_decode (firm.edges item there) decoded
  obtain ⟨y, again, same⟩ := decode_document_of_lasts (lasts_complete nodesLast edgesLast ids)
  exact ⟨y, again, same, w.document_stated⟩

/-- A stored workflow in both spellings, with texts for numbers and truth values, members that are not
known, identifiers that are left out, and a pause of open length. -/
def loose : Document :=
  .object
    [("name", .text "loose"), ("version", .text "6"),
     ("nodes", .list
      [.object [("kind", .text "trigger"),
         ("config", .object [("list_id", .text "l"), ("note", .list [.null])])],
       .object [("id", .text "c"), ("kind", .text "condition"),
         ("config", .object [("clauses", .list
          [.object [("rule", .text "tag_exists"), ("property_key", .text "k"), ("hint", .bool true)]])]),
         ("meta", .object [("enrollmentCount", .text "3"), ("enrollment_count", .int 4)])],
       .object [("id", .text "p"), ("kind", .text "wait")]]),
     ("edges", .list
      [.object [("source", .text "c"), ("target", .text "p"), ("source_handle", .text "if"),
        ("animated", .int 0), ("data", .object [("highlighted", .text "Yes"), ("colour", .text "red")])]])]

theorem decode_document_loose :
    ∃ x, decode loose = .valid x ∧
      let w := (x.run .strokes).1
      (∃ y, decode w.document = .valid y ∧ (∀ ids', y.run ids' = (w.stated, ids'))
          ∧ w.stated.document = w.document)
        ∧ w.version = 6 ∧ w.nodes.map (·.kind) = [.trigger, .condition, .wait]
        ∧ w.edges.map (·.sourceHandle) = [some "if"] := by
  have accepted : (decode loose).toOption.isSome = true := by decide +kernel
  have held : (decode loose).toOption.map (fun x =>
      let w := (x.run .strokes).1
      (w.version, w.nodes.map (·.kind), w.edges.map (·.sourceHandle)))
      = some (6, [.trigger, .condition, .wait], [some "if"]) := by
    decide +kernel
  have nodes : ∀ item ∈ (Fields.getD loose.fields "nodes").items, Node.Firm item := by decide +kernel
  have edges : ∀ item ∈ (Fields.getD loose.fields "edges").items,
      (Fields.getD item.fields "data").fields.Firm := by decide +kernel
  cases read : decode loose with
  | faulty places =>
    rw [read] at accepted
    cases accepted
  | valid x =>
    rw [read] at held
    have parts := Option.some.inj held
    exact ⟨x, rfl, decode_document loose read ⟨nodes, edges⟩ .strokes, congrArg (·.1) parts,
      congrArg (·.2.1) parts, congrArg (·.2.2) parts⟩

end Workflow

end Journey
