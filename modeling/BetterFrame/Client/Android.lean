import BetterFrame.Lib.Json
import BetterFrame.Lib.Url

/-!
# The Android viewer's render plan

`core/android.rs`, with what it uses of `core/bundle.rs` and `core/layout.rs`. The `url` crate is a parameter.
-/

namespace Android

open Text

/-! ### The bundle -/

/-- A cell of a layout, with the fields that a plan of the viewer is made of. -/
structure BundleCell where
  view_id : Option String
  row : Nat
  col : Nat
  row_span : Nat
  col_span : Nat
  content_type : String
  camera_id : Option String
  stream_selector : Option String
  web_url : Option String
  html_content : Option String
  fit : String
  /-- Whether a scripted login is configured. -/
  smart_url : Bool
  local_storage : Option (List (String × String))
  input_options : Option Json

structure BundleLayout where
  id : String
  name : String
  grid_cols : Nat
  grid_rows : Nat
  idle_timeout_seconds : Option Nat
  is_default : Bool
  resets_idle_timer : Bool
  cells : List BundleCell

structure BundleStream where
  role : String
  rtsp_uri : String
  encoding : Option String

structure BundleCamera where
  id : String
  name : String
  enabled : Bool
  rtsp_url : Option String
  streams : List BundleStream
  playback_username : Option String
  playback_password_encrypted : Option String

structure BundleDisplay where
  id : String
  idle_timeout_seconds : Nat
  sleep_timeout_seconds : Nat
  default_layout_id : Option String

structure BundleDisplayWithLayouts extends BundleDisplay where
  layouts : List BundleLayout

structure KioskBundle where
  kiosk_id : String
  display : Option BundleDisplay
  layouts : List BundleLayout
  displays : List BundleDisplayWithLayouts
  cameras : List BundleCamera

/-- The displays of a bundle; older bundles have one display beside its layouts. -/
def KioskBundle.normalized_displays (bundle : KioskBundle) : List BundleDisplayWithLayouts :=
  if bundle.displays ≠ [] then bundle.displays
  else
    match bundle.display with
    | some display => [{ display with layouts := bundle.layouts }]
    | none => []

def NO_LAYOUTS_ASSIGNED_MESSAGE : String := "go into BetterFrame and assign layouts to this display"

/-- The layout shown first: the default by id, else the one marked as default, else the first. -/
def initial_layout_id (display : BundleDisplayWithLayouts) : Option String :=
  ((display.default_layout_id.filter fun id => display.layouts.any (·.id = id)).or
    ((display.layouts.find? (·.is_default)).map (·.id))).or (display.layouts.head?.map (·.id))

/-- The action configured for an event of the cell, and its parameters. -/
def configured_cell_action (cell : BundleCell) (kind : String) : Option (String × Json) := do
  let event ← (← (← cell.input_options).get? "events").get? kind
  return (← (← event.get? "action").asStr?, (event.get? "params").getD (.obj []))

/-! ### The plan -/

/-- What a camera's cell plays, and what it falls back to. -/
structure CameraSource where
  id : String
  uri : String
  fallback_uri : Option String
  username : Option String
  encrypted_password : Option String

/-- What a cell shows as a page: a URL, or a text with the URL it is relative to. -/
structure WebSource where
  url : Option String
  html : Option String
  base_url : Option String
  origin : Option String
  local_storage : List (String × String)
  interactive : Bool
  allow_audio : Bool

/-- What touching a cell does. -/
inductive CellAction where
  | Expand
  | Restore
  | SwitchLayout (layout_id : String)
  | Unsupported
deriving DecidableEq

/-- A cell as the viewer draws it. -/
structure RenderCell where
  id : String
  label : String
  row : Nat
  col : Nat
  row_span : Nat
  col_span : Nat
  fit : String
  kind : String
  camera : Option CameraSource
  web : Option WebSource
  message : Option String
  action : CellAction

structure LayoutChoice where
  id : String
  name : String

/-- What the viewer shows of one display, and when it goes idle and to sleep. -/
structure RenderPlan where
  display_id : String
  layout_id : String
  layout_name : String
  layouts : List LayoutChoice
  expanded_cell_id : Option String
  idle_timeout_seconds : Nat
  sleep_timeout_seconds : Nat
  idle_return_layout_id : String
  resets_idle_timer : Bool
  background : String
  rows : Nat
  cols : Nat
  gap : Nat
  max_camera_streams : Nat
  max_web_views : Nat
  cells : List RenderCell

def MAX_CAMERAS : Nat := 32
def MAX_WEB_VIEWS : Nat := 32
def MAX_CELLS : Nat := 64

/-- What is read of a parsed URL. -/
structure ParsedUrl where
  scheme : String
  host_str : Option String
  username : String
  password : Option String
  origin : String

/-- `Url::parse` -/
abbrev Parser := String → Option ParsedUrl

variable (parse : Parser)

def cell_id (cell : BundleCell) (index : Nat) : String := cell.view_id.getD ("cell-" ++ toString index)

/-- `u32::checked_add` -/
def checked_add (a b : Nat) : Option Nat := if a + b < 2 ^ 32 then some (a + b) else none

/-- The positions that a cell takes up, row by row. -/
def positions (cell : BundleCell) : List (Nat × Nat) :=
  (List.range' cell.row cell.row_span).flatMap fun row =>
    (List.range' cell.col cell.col_span).map fun col => (row, col)

/-- Each position is inserted unless it is there already. -/
def occupy (occupied : List (Nat × Nat)) : List (Nat × Nat) → Option (List (Nat × Nat))
  | [] => some occupied
  | position :: rest => if position ∈ occupied then none else occupy (position :: occupied) rest

/-- Every cell has an id of its own and lies in the grid without covering another. -/
def validate_cells (layout : BundleLayout) (ids : List String) (occupied : List (Nat × Nat)) :
    List (BundleCell × Nat) → Except String Unit
  | [] => .ok ()
  | (cell, i) :: rest =>
    if cell_id cell i ∈ ids then .error "Layout contains duplicate cell IDs"
    else if cell.row_span = 0 ∨ cell.col_span = 0 ∨
      (checked_add cell.row cell.row_span).all (layout.grid_rows < ·) ∨
        (checked_add cell.col cell.col_span).all (layout.grid_cols < ·) then
      .error "Cell is outside the assigned grid"
    else
      match occupy occupied (positions cell) with
      | none => .error "Layout contains overlapping cells"
      | some occupied => validate_cells layout (cell_id cell i :: ids) occupied rest

def validate_layout (layout : BundleLayout) : Except String Unit :=
  if layout.grid_cols = 0 ∨ layout.grid_rows = 0 ∨ layout.grid_cols > 16 ∨ layout.grid_rows > 16 ∨
      layout.cells.length > MAX_CELLS then
    .error "Layout exceeds supported grid bounds"
  else validate_cells layout [] [] layout.cells.zipIdx

def action (cell : BundleCell) (layouts : List BundleLayout) : CellAction :=
  match configured_cell_action cell "click" with
  | none => .Expand
  | some (name, params) =>
    if name = "expand" ∨ name = "view.expand" then .Expand
    else if name = "restore" ∨ name = "view.restore" then .Restore
    else if name = "layout.switch" then
      let id := (params.get? "layout_id").bind fun v =>
        match v with
        | .str s => some s
        | .num n => some (String.ofList n.lit)
        | _ => none
      match id.filter fun id => layouts.any (·.id = id) with
      | some layout_id => .SwitchLayout layout_id
      | none => .Unsupported
    else .Unsupported

def valid_rtsp (value : String) : Bool := (parse value).any fun u => u.scheme = "rtsp" && u.host_str.isSome

/-- A reference that stays on the web: `http`, `https`, or relative to such a URL. -/
def valid_web_reference (value : String) : Bool :=
  let cs := trimWhitespaceChars value.toList
  if cs = [] ∨ "//".toList.isPrefixOf cs ∨ '\\' ∈ cs then false
  else
    match parse (String.ofList cs) with
    | some u =>
      (u.scheme = "http" || u.scheme = "https") && u.host_str.isSome && u.username = "" &&
        u.password.isNone
    | none => ':' ∉ cs

/-- The encoding is H.264, or is not known. -/
def compatible_encoding (stream : BundleStream) : Bool :=
  stream.encoding.all fun e =>
    let cs := (Url.lower e.toList).filter fun c => c ≠ '.' && c ≠ '-'
    cs = "h264".toList || cs = "avc".toList || cs = "avc1".toList

/-- The URI that a tile plays, among the streams that the viewer can decode. -/
def pick_stream (camera : BundleCamera) (expanded : Bool) (selector : Option String) : Option String :=
  let compatible := camera.streams.filter fun s => compatible_encoding s && valid_rtsp parse s.rtsp_uri
  let preferred := if expanded then "main" else if selector = some "main" then "main" else "sub"
  ((compatible.find? (·.role = preferred)).or compatible.head?).map (·.rtsp_uri) |>.or
    (if camera.streams = [] then camera.rtsp_url.filter (valid_rtsp parse) else none)

/-- Why a page is not shown. -/
def web_content_error (cell : BundleCell) : Option String :=
  if cell.smart_url then some "Scripted login is not supported on Android"
  else if cell.content_type = "web" ∧ cell.web_url.all (!valid_web_reference parse ·) then
    some "Unsupported or missing web URL"
  else if cell.content_type = "html" ∧ cell.html_content.all (trimWhitespaceChars ·.toList = []) then
    some "No HTML content assigned"
  else none

/-- The sixteen digits of the hash, after FNV-1a. -/
def hex_id (value : String) : String :=
  let hash := (value.toList.flatMap Url.utf8).foldl (fun n b => (n ^^^ UInt64.ofNat b) * 0x100000001b3)
    (0xcbf29ce484222325 : UInt64)
  String.ofList ((List.range 16).map fun i => hexDigit (hash.toNat / 16 ^ (15 - i) % 16))

/-- The enabled camera with an id: the last of them, since each replaces the ones before it in the map. -/
def enabled_camera (bundle : KioskBundle) (id : String) : Option BundleCamera :=
  (bundle.cameras.filter (·.enabled)).reverse.find? (·.id = id)

/-! ### Rendering -/

def fit_of (fit : String) : String := if fit = "contain" then "contain" else if fit = "fill" then "fill"
  else "cover"

/-- What a camera cell shows, and how many cameras are shown after it. -/
def render_camera (bundle : KioskBundle) (cell : BundleCell) (expanded : Bool) (camera_count : Nat)
    (output : RenderCell) :
    RenderCell × Nat :=
  match cell.camera_id.bind (enabled_camera bundle) with
  | some camera =>
    let output := { output with label := camera.name }
    if MAX_CAMERAS ≤ camera_count then
      ({ output with message := some "Camera limit reached; expand this tile to view" }, camera_count)
    else
      match pick_stream parse camera expanded cell.stream_selector with
      | some uri =>
        let fallback := (pick_stream parse camera false (some "sub")).filter (· ≠ uri)
        ({ output with
          kind := "camera"
          camera := some ⟨camera.id, uri, fallback, camera.playback_username,
            camera.playback_password_encrypted⟩ },
          camera_count + 1)
      | none => ({ output with message := some "No compatible H.264 RTSP stream" }, camera_count)
  | none => ({ output with message := some "Camera is unavailable or no longer assigned" }, camera_count)

def render_web (bundle : KioskBundle) (layout : BundleLayout) (cell : BundleCell) (output : RenderCell) :
    RenderCell :=
  let output := { output with label := if cell.content_type = "html" then "HTML" else "Web / signage" }
  match web_content_error parse cell with
  | some message => { output with message := some message }
  | none =>
    let url := if cell.content_type = "web" then cell.web_url else none
    let origin := (url.bind parse).map (·.origin)
    let base := "https://bf-html-" ++ hex_id (bundle.kiosk_id ++ ":" ++ layout.id ++ ":" ++ output.id) ++
      ".invalid/"
    { output with
      kind := "web"
      web := some {
        url
        html := if cell.content_type = "html" then cell.html_content else none
        base_url := some base
        origin
        local_storage := cell.local_storage.getD []
        interactive := true
        allow_audio := false } }

/-- The cell with its content, and how many cameras there are with it. -/
def render_content (bundle : KioskBundle) (layout : BundleLayout) (cell : BundleCell)
    (expanded : Bool) (camera_count : Nat) (output : RenderCell) : RenderCell × Nat :=
  if cell.content_type = "camera" then render_camera parse bundle cell expanded camera_count output
  else if cell.content_type = "web" ∨ cell.content_type = "html" then
    (render_web parse bundle layout cell output, camera_count)
  else if cell.content_type ∈ ["none", "empty", "placeholder"] then
    ({ output with message := some "No content assigned" }, camera_count)
  else ({ output with message := some "Content type is not supported on Android" }, camera_count)

/-- A cell before its content is known. -/
def blank_cell (layouts : List BundleLayout) (expanded : Bool) (index : Nat) (cell : BundleCell) :
    RenderCell where
  id := cell_id cell index
  label := ""
  row := if expanded then 0 else cell.row
  col := if expanded then 0 else cell.col
  row_span := if expanded then 1 else cell.row_span
  col_span := if expanded then 1 else cell.col_span
  fit := fit_of cell.fit
  kind := "placeholder"
  camera := none
  web := none
  message := none
  action := action cell layouts

def unsupported_message (output : RenderCell) : RenderCell :=
  if output.action = .Unsupported ∧ output.message = none then
    { output with message := some "Configured input action is unsupported" }
  else output

/-- The cells from the `n`-th camera on. -/
def render_cells (bundle : KioskBundle) (display : BundleDisplayWithLayouts) (layout : BundleLayout)
    (expanded : Bool) :
    Nat → List (BundleCell × Nat) → List RenderCell
  | _, [] => []
  | camera_count, (cell, index) :: rest =>
    let (output, camera_count) :=
      render_content parse bundle layout cell expanded camera_count
        (blank_cell display.layouts expanded index cell)
    unsupported_message output :: render_cells bundle display layout expanded camera_count rest

/-- The cell to be expanded, unless it is of a camera that is not to be had. -/
def expanded_cell (bundle : KioskBundle) (layout : BundleLayout) (expanded_cell_id : Option String) :
    Option String :=
  (expanded_cell_id.filter (· ≠ "")).bind fun id =>
    ((layout.cells.zipIdx.find? fun (c, i) => cell_id c i = id).filter fun (c, _) =>
      c.content_type ≠ "camera" || c.camera_id.any fun id => (enabled_camera bundle id).isSome).map
        fun (c, i) => cell_id c i

/-- The cells to be shown, with their places in the layout. -/
def visible_cells (layout : BundleLayout) (expanded : Option String) : List (BundleCell × Nat) :=
  layout.cells.zipIdx.filter fun c => expanded.all (· = cell_id c.1 c.2)

/-- What is shown of the first display with the layout and the expanded cell that are asked for. -/
def render_plan (bundle : KioskBundle) (layout_id expanded_cell_id : Option String) :
    Except String RenderPlan :=
  match bundle.normalized_displays with
  | [] => .error NO_LAYOUTS_ASSIGNED_MESSAGE
  | [display] =>
    if display.layouts = [] then .error NO_LAYOUTS_ASSIGNED_MESSAGE
    else
      let default := initial_layout_id display
      let selected := (layout_id.filter (· ≠ "")).or default
      match display.layouts.find? fun l => some l.id = selected with
      | none => .error "Layout is not assigned to this display"
      | some selected_layout =>
        match validate_layout selected_layout with
        | .error error => .error error
        | .ok () =>
          let expanded := expanded_cell bundle selected_layout expanded_cell_id
          let visible := visible_cells selected_layout expanded
          .ok {
            display_id := display.id
            layout_id := selected_layout.id
            layout_name := selected_layout.name
            layouts := display.layouts.map fun l => ⟨l.id, l.name⟩
            rows := if expanded.isSome then 1 else selected_layout.grid_rows
            cols := if expanded.isSome then 1 else selected_layout.grid_cols
            expanded_cell_id := expanded
            sleep_timeout_seconds := display.sleep_timeout_seconds
            idle_timeout_seconds := selected_layout.idle_timeout_seconds.getD display.idle_timeout_seconds
            idle_return_layout_id := default.getD selected_layout.id
            resets_idle_timer := selected_layout.resets_idle_timer
            background := "#101418"
            gap := 4
            max_camera_streams := MAX_CAMERAS
            max_web_views := MAX_WEB_VIEWS
            cells := render_cells parse bundle display selected_layout expanded.isSome 0 visible }
  | _ => .error "Android viewer requires exactly one assigned display"

end Android
