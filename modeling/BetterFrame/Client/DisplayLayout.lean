import BetterFrame.Client.KioskBundle

/-!
# The layout that a display shows

`ui.rs`: the state of a display, the choice of its layout and what an operator's overrides make of it.
-/

/-- The camera that an operator has put on a display. -/
structure FocusOverride where
  camera_id : String
  stream : String
  generation : Nat
deriving DecidableEq

/-- `focus_overrides` has one entry for each cell. -/
structure DisplayState where
  current_layout_id : Option String
  is_asleep : Bool
  focus_overrides : List (String × FocusOverride)
  fullscreen_override : Option FocusOverride
  display_cleared : Bool
  override_generation : Nat
deriving DecidableEq

def cell_id (cell : BundleCell) : String :=
  cell.view_id.getD ("r" ++ toString cell.row ++ "c" ++ toString cell.col)

/-- A cell without content. -/
def emptyCell : BundleCell where
  view_id := none
  entity_id := none
  row := 0
  col := 0
  row_span := 1
  col_span := 1
  content_type := "none"
  camera_id := none
  stream_selector := none
  web_url := none
  html_content := none
  cooling_timeout_seconds := none
  fit := "cover"
  smart_url := none
  local_storage := none
  input_options := none

namespace BundleCell

/-- The cell of a display that was cleared. -/
def cleared (cell : BundleCell) : BundleCell := { cell with content_type := "none", camera_id := none }

/-- The cell over the whole grid, with the camera in focus. -/
def fullscreen (focus : FocusOverride) (cell : BundleCell) : BundleCell :=
  { cell with
    row := 0
    col := 0
    row_span := 1
    col_span := 1
    content_type := "camera"
    camera_id := some focus.camera_id
    stream_selector := some focus.stream }

/-- The cell with the camera that was put into it. -/
def focused (focus_overrides : List (String × FocusOverride)) (cell : BundleCell) : BundleCell :=
  match focus_overrides.lookup (cell_id cell) with
  | some focus => { cell with
      content_type := "camera"
      camera_id := some focus.camera_id
      stream_selector := some focus.stream
      web_url := none
      html_content := none }
  | none => cell

end BundleCell

/-- The layout as operators have changed it. -/
def apply_operator_overrides (st : DisplayState) (layout : BundleLayout) : BundleLayout :=
  if st.display_cleared then { layout with cells := layout.cells.map BundleCell.cleared }
  else match st.fullscreen_override with
    | some focus =>
      { layout with
        grid_cols := 1, grid_rows := 1, cells := [(layout.cells.head?.getD emptyCell).fullscreen focus] }
    | none => { layout with cells := layout.cells.map (BundleCell.focused st.focus_overrides) }

namespace BundleDisplayWithLayouts

variable (bd : BundleDisplayWithLayouts)

def layout? (id : String) : Option BundleLayout := bd.layouts.find? (·.id = id)

/-- A layout that is not on the display gives way to the default. -/
def chosenLayout (layout_id : String) : Option BundleLayout :=
  (((bd.layout? layout_id).or (bd.default_layout_id.bind bd.layout?)).or
    (bd.layouts.find? (·.is_default))).or bd.layouts.head?

end BundleDisplayWithLayouts

namespace KioskBundle

variable (bundle : KioskBundle)

def display? (id : String) : Option BundleDisplayWithLayouts := bundle.normalized_displays.find? (·.id = id)

/-- Of cameras with one id the last is in the map. -/
def camera? (id : String) : Option BundleCamera := bundle.cameras.reverse.find? (·.id = id)

theorem camera?_eq_find? (h : (bundle.cameras.map (·.id)).Nodup) (id : String) :
    bundle.camera? id = bundle.cameras.find? (·.id = id) := by
  unfold camera?
  generalize bundle.cameras = cameras at h
  induction cameras with
  | nil => rfl
  | cons camera cameras ih =>
    rw [List.map_cons, List.nodup_cons] at h
    rw [List.reverse_cons, List.find?_append, ih h.2, List.find?_cons]
    by_cases hid : camera.id = id
    · have hnone : cameras.find? (·.id = id) = none := by
        refine List.find?_eq_none.2 fun other hother heq => h.1 ?_
        exact List.mem_map.2 ⟨other, hother, (of_decide_eq_true heq).trans hid.symm⟩
      simp [hid, hnone]
    · simp [hid]

end KioskBundle
