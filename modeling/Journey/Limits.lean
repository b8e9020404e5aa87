import Journey.Environment

/-!
# Journey.Limits -- the limits and distances of an editor

An editor is set up with three limits, which are at least one, and three distances: how many steps a
compiled flow and a dry run may have, how many changes can be taken back, how far a pasted block is
moved, and how far apart lanes and rows are laid out.  A limit that is below one, and everything that
is not given, takes its default.  Main statement: the limits are at least one (`le_ofFields`).
-/

namespace Journey

set_option autoImplicit false

/-- The limits and distances of an editor. -/
structure Limits where
  compileSteps : Nat := 64
  simulationSteps : Nat := 48
  history : Nat := 100
  pasteOffset : Float := 44.0
  laneSpacing : Float := 260.0
  rowSpacing : Float := 164.0

namespace Limits

/-- The name of the settings. -/
def name : String := "builder"

/-- The name of the settings as it is shown. -/
def displayName : String := "Sequence Builder"

/-- The limits and distances by name. -/
def fields (l : Limits) : Fields :=
  [("compile_step_guard", .int l.compileSteps), ("simulation_step_guard", .int l.simulationSteps),
   ("history_limit", .int l.history), ("paste_offset", .float l.pasteOffset),
   ("layout_spacing_x", .float l.laneSpacing), ("layout_spacing_y", .float l.rowSpacing)]

/-- The variables of the environment that are named for them. -/
def variableNames : Environment.Variables :=
  [("compile_step_guard", "SEQUENCE_BUILDER_COMPILE_STEP_GUARD"),
   ("simulation_step_guard", "SEQUENCE_BUILDER_SIMULATION_STEP_GUARD"),
   ("history_limit", "SEQUENCE_BUILDER_HISTORY_LIMIT"),
   ("paste_offset", "SEQUENCE_BUILDER_PASTE_OFFSET"),
   ("layout_spacing_x", "SEQUENCE_BUILDER_LAYOUT_SPACING_X"),
   ("layout_spacing_y", "SEQUENCE_BUILDER_LAYOUT_SPACING_Y")]

/-- The limit that a document says, the default if it says none of at least one. -/
def limit (default : Nat) (d : Option Document) : Nat :=
  match d with
  | some (.int n) => if 1 ≤ n then n.toNat else default
  | _ => default

/-- The distance that a document says, the default if it says none. -/
def distance (default : Float) (d : Option Document) : Float :=
  match d with
  | some (.float x) => x
  | some (.int n) => (Decimal.ofInt? n).getD default
  | _ => default

/-- The limits and distances that a row says. -/
def ofFields (row : Fields) : Limits :=
  let usual : Limits := {}
  { compileSteps := limit usual.compileSteps (Fields.get? row "compile_step_guard")
    simulationSteps := limit usual.simulationSteps (Fields.get? row "simulation_step_guard")
    history := limit usual.history (Fields.get? row "history_limit")
    pasteOffset := distance usual.pasteOffset (Fields.get? row "paste_offset")
    laneSpacing := distance usual.laneSpacing (Fields.get? row "layout_spacing_x")
    rowSpacing := distance usual.rowSpacing (Fields.get? row "layout_spacing_y") }

/-- The limits and distances that the environment says. -/
def ofEnvironment (environment : Environment.Variables) : Limits :=
  ofFields (Environment.read variableNames (fields {}) environment)

theorem le_limit {default : Nat} (h : 1 ≤ default) (d : Option Document) : 1 ≤ limit default d := by
  unfold limit
  split
  · split <;> omega
  · exact h

theorem le_ofFields (row : Fields) :
    1 ≤ (ofFields row).compileSteps ∧ 1 ≤ (ofFields row).simulationSteps
      ∧ 1 ≤ (ofFields row).history :=
  ⟨le_limit (by decide) _, le_limit (by decide) _, le_limit (by decide) _⟩

end Limits

end Journey
