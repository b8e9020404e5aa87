import Journey.Condition.Conversion
import Journey.Workflow.Paths

/-!
# Journey.Layout -- places on the canvas

Nodes are laid out in rows and lanes.  The row of a node is the number of edges on the shortest way
from the trigger to it.  Its lane is that of the node it was first reached from, shifted by the branch
that was taken: the first branches of conditions and splits lead to the left, the last ones to the
right, and the others spread between them.  Nodes that are not reached stand side by side in the top
row.  Without a trigger the nodes are set in rows of three.

The nodes are reached breadth first, and from each node in the order of its branches
(`sortByBranch`).  Every edge is used once, and of the spots of a node the first counts.  Where the
number of an else-if handle on the way has too many digits there is no layout (`tryLayout`).

Main statements: sorting by branch keeps all edges (`sortByBranch_perm`), and a layout keeps the nodes
and all but their places (`map_id_layout`).
-/

namespace Journey

set_option autoImplicit false

namespace Layout

/-- Handles of first branches, the older name among them. -/
def leftHandles : List String := ["if", "yes", "a"]

/-- Handles of last branches, the older name among them. -/
def rightHandles : List String := ["else", "no", "b"]

/-- Where a handle stands among the branches of a node. -/
def rank (handle : Option String) : Nat :=
  match handle with
  | none => 100
  | some h =>
      if leftHandles.contains h then 1
      else match Handle.elseIf? h with
        | some n => 10 + n
        | none => if rightHandles.contains h then 90 else 100

/-- The edges in the order of their branches; those of equal rank keep their order. -/
def sortByBranch (edges : List Edge) : List Edge :=
  edges.mergeSort fun e f => rank e.sourceHandle ≤ rank f.sourceHandle

/-- What is converted when edges are ordered by their branches. -/
def rankConversions (edges : List Edge) : List Conversion :=
  edges.flatMap fun e => (e.sourceHandle.map Conversion.handle).toList

/-- The edges in the order of their branches, once the numbers of their handles are read. -/
def trySort (edges : List Edge) : Except Overlong (List Edge) :=
  Conversion.after (rankConversions edges) (sortByBranch edges)

theorem sortByBranch_perm (edges : List Edge) : (sortByBranch edges).Perm edges :=
  List.mergeSort_perm _ _

/-- How far the edge at a position among `total` leads to the side. -/
def laneOffset (handle : Option String) (position total : Nat) : Int :=
  if handle.any leftHandles.contains then -1
  else if handle.any rightHandles.contains then 1
  else if total ≤ 1 then 0
  else if total = 2 then (if position = 0 then -1 else 1)
  else (position : Int) - (total / 2 : Nat)

/-- A point with its row and its lane. -/
structure Spot where
  id : String
  row : Nat
  lane : Int
  deriving DecidableEq

/-- The spots that edges lead to, the first of which stands at a position among `total`. -/
def spotsAfter (s : Spot) (total position : Nat) : List Edge → List Spot
  | [] => []
  | e :: es =>
      ⟨e.target, s.row + 1, s.lane + laneOffset e.sourceHandle position total⟩
        :: spotsAfter s total (position + 1) es

/-- The spots next to a spot. -/
def nextSpots (edges : List Edge) (s : Spot) : List Spot :=
  let out := sortByBranch (Workflow.edgesFrom edges s.id)
  spotsAfter s out.length 0 out

@[simp] theorem length_spotsAfter (s : Spot) (total position : Nat) (edges : List Edge) :
    (spotsAfter s total position edges).length = edges.length := by
  induction edges generalizing position with
  | nil => rfl
  | cons e es ih => simp [spotsAfter, ih]

theorem length_nextSpots (edges : List Edge) (s : Spot) :
    (nextSpots edges s).length = (Paths.next edges s.id).length := by
  simp [nextSpots, Paths.next, (sortByBranch_perm _).length_eq]

/-- The spots that are reached from the queue, in the order in which they are reached. -/
def spread (edges : List Edge) : List Spot → List Spot
  | [] => []
  | s :: queue => s :: spread (Paths.others edges s.id) (queue ++ nextSpots edges s)
termination_by queue => edges.length + queue.length
decreasing_by
  have := Paths.length_others_add_length_next edges s.id
  simp only [List.length_append, List.length_cons, length_nextSpots]
  omega

/-- Where the upper left spot stands. -/
def baseX : Float := 360.0

/-- The height of the top row. -/
def baseY : Float := 80.0

/-- The place of a spot, with the distances between lanes and rows. -/
def place (dx dy : Float) (lane : Int) (row : Nat) : Position :=
  { x := baseX + Float.ofInt lane * dx, y := baseY + Float.ofNat row * dy }

/-- The nodes in rows of three, the first at a position. -/
def inThrees (dx dy : Float) (position : Nat) : List Node → List Node
  | [] => []
  | n :: ns =>
      { n with position := place dx dy (position % 3 : Nat) (position / 3) }
        :: inThrees dx dy (position + 1) ns

/-- The nodes on their spots; those that have none stand in the top row, after the given number. -/
def onSpots (dx dy : Float) (spots : List Spot) (aside : Nat) : List Node → List Node
  | [] => []
  | n :: ns =>
      match spots.find? fun s => s.id == n.id with
      | some s => { n with position := place dx dy s.lane s.row } :: onSpots dx dy spots aside ns
      | none =>
          { n with position := { x := baseX + Float.ofNat (aside + 1) * dx, y := baseY } }
            :: onSpots dx dy spots (aside + 1) ns

theorem map_id_inThrees (dx dy : Float) (position : Nat) (ns : List Node) :
    (inThrees dx dy position ns).map (·.id) = ns.map (·.id) := by
  induction ns generalizing position with
  | nil => rfl
  | cons n ns ih => simp [inThrees, ih]

theorem map_id_onSpots (dx dy : Float) (spots : List Spot) (aside : Nat) (ns : List Node) :
    (onSpots dx dy spots aside ns).map (·.id) = ns.map (·.id) := by
  induction ns generalizing aside with
  | nil => rfl
  | cons n ns ih =>
    simp only [onSpots]
    split <;> simp [ih]

end Layout

namespace Workflow

/-- The distance between lanes if nothing else is said. -/
def laneSpacing : Float := 260.0

/-- The distance between rows if nothing else is said. -/
def rowSpacing : Float := 164.0

/-- A distance, or the usual one in place of none. -/
def spacingOr (distance usual : Float) : Float := if distance == 0.0 then usual else distance

/-- The nodes with places that show how they are connected. -/
def layout (w : Workflow) (dx : Float := laneSpacing) (dy : Float := rowSpacing) : List Node :=
  let dx := spacingOr dx laneSpacing
  let dy := spacingOr dy rowSpacing
  match w.trigger? with
  | none => Layout.inThrees dx dy 0 w.nodes
  | some t => Layout.onSpots dx dy (Layout.spread w.edges [⟨t.id, 0, 0⟩]) 0 w.nodes

/-- What is converted when the nodes are laid out: the handles of the edges on the way. -/
def layoutConversions (w : Workflow) : List Conversion :=
  match w.trigger? with
  | none => []
  | some t => (Layout.spread w.edges [⟨t.id, 0, 0⟩]).flatMap fun s =>
      Layout.rankConversions (edgesFrom w.edges s.id)

/-- The nodes with places that show how they are connected, once the numbers of the handles on the
way are read. -/
def tryLayout (w : Workflow) (dx : Float := laneSpacing) (dy : Float := rowSpacing) :
    Except Overlong (List Node) :=
  Conversion.after w.layoutConversions (w.layout dx dy)

theorem map_id_layout (w : Workflow) (dx dy : Float) :
    (w.layout dx dy).map (·.id) = w.nodes.map (·.id) := by
  simp only [layout]
  split
  · exact Layout.map_id_inThrees ..
  · exact Layout.map_id_onSpots ..

end Workflow

end Journey
