import Journey.Workflow.Basic

/-!
# Journey.Workflow.Change -- workflows with something added, replaced or taken out

These are the changes of which every edit is made.  A node is taken out together with the edges that
leave or enter it, and whatever stays keeps its order.  Where several nodes have one identifier, the
first of them is replaced and all of them are taken out.  Main statements: exactly the nodes that are
not named stay, and exactly the edges that touch none of those named (`mem_nodes_withoutNodes`,
`mem_edges_withoutNodes`), and replacing a node keeps the number of nodes (`length_replaceFirst`).
-/

namespace Journey.Workflow

set_option autoImplicit false

/-- The list with the first node that has the identifier replaced. -/
def replaceFirst (id : String) (f : Node → Node) : List Node → List Node
  | [] => []
  | n :: ns => if n.id == id then f n :: ns else n :: replaceFirst id f ns

/-- The workflow with the first node that has the identifier replaced. -/
def updateNode (w : Workflow) (id : String) (f : Node → Node) : Workflow :=
  { w with nodes := replaceFirst id f w.nodes }

/-- The workflow with a node at the end. -/
def addNode (w : Workflow) (n : Node) : Workflow := { w with nodes := w.nodes ++ [n] }

/-- The workflow with an edge at the end. -/
def addEdge (w : Workflow) (e : Edge) : Workflow := { w with edges := w.edges ++ [e] }

/-- The workflow without the nodes that have the identifiers, and without their edges. -/
def withoutNodes (w : Workflow) (ids : List String) : Workflow :=
  { w with
    nodes := w.nodes.filter fun n => !ids.contains n.id
    edges := w.edges.filter fun e => !ids.contains e.source && !ids.contains e.target }

/-- The workflow without the edges that have the identifiers. -/
def withoutEdges (w : Workflow) (ids : List String) : Workflow :=
  { w with edges := w.edges.filter fun e => !ids.contains e.id }

/-- The workflow without the edges one of whose ends is no node. -/
def withoutLooseEdges (w : Workflow) : Workflow :=
  { w with edges := w.edges.filter fun e => w.hasNode e.source && w.hasNode e.target }

/-- The workflow with exactly the edges highlighted that have the identifiers. -/
def highlight (w : Workflow) (ids : List String) : Workflow :=
  { w with edges := w.edges.map fun e => e.highlight (ids.contains e.id) }

theorem mem_nodes_withoutNodes {w : Workflow} {ids : List String} {n : Node} :
    n ∈ (w.withoutNodes ids).nodes ↔ n ∈ w.nodes ∧ n.id ∉ ids := by
  simp [withoutNodes]

theorem mem_edges_withoutNodes {w : Workflow} {ids : List String} {e : Edge} :
    e ∈ (w.withoutNodes ids).edges ↔ e ∈ w.edges ∧ e.source ∉ ids ∧ e.target ∉ ids := by
  simp [withoutNodes]

@[simp] theorem length_replaceFirst (id : String) (f : Node → Node) (ns : List Node) :
    (replaceFirst id f ns).length = ns.length := by
  induction ns with
  | nil => rfl
  | cons n ns ih =>
    simp only [replaceFirst]
    split <;> simp [ih]

@[simp] theorem edgeIds_highlight (w : Workflow) (ids : List String) :
    (w.highlight ids).edgeIds = w.edgeIds := by
  simp [edgeIds, highlight, Function.comp_def]

end Journey.Workflow
