import BetterFrame.Lib.Doc
import Mathlib.Data.List.Sort

/-!
# The bundle of a kiosk (shared/bundle.ts, service-api-http /api/kiosk/bundle)

`generateBundle` reads the rows of a kiosk and puts together what the kiosk shows. Passwords go into
the bundle encrypted with a fresh IV each, so its text differs from request to request; its version
is the hash of a copy in which every ciphertext is replaced by a fingerprint of what it encrypts,
and a kiosk that names the version is answered 304.

An encrypted value is kept as a hole of a `Doc`, labelled by what is encrypted, with which key, under which
context and at which place of the run. `Draws.iv` is the IV of each place. `none` as a result is an exception.
-/

namespace Bundle

open Text
open Json (stringOf)

/-- The members of a JSON object. -/
abbrev Record := List (String × Json)

/-! ### Rows

PostgreSQL's text and jsonb hold no NUL, which the rows carry where a context is made of them. -/

def noNul (s : String) : Bool := '\x00' ∉ s.toList

mutual

/-- No string value in it has a NUL. -/
def NoNul : Json → Bool
  | .str s => noNul s
  | .arr xs => NoNulItems xs
  | .obj ms => NoNulMembers ms
  | _ => true

def NoNulItems : List Json → Bool
  | [] => true
  | x :: xs => NoNul x && NoNulItems xs

def NoNulMembers : Record → Bool
  | [] => true
  | (_, v) :: ms => NoNul v && NoNulMembers ms

end

structure Kiosk where
  name : String
  capabilities : List String
  encrypt_key_encrypted : Option String
  display_id : Option String
  operator_console_enabled : Bool
  operator_console_host : Option String
  operator_console_port : Int
  operator_tools_json : Option String
  simple_vms_enabled : Bool
  simple_vms_storage_path : Option String
  simple_vms_settings_json : Option String

structure Display where
  id : String
  name : String
  is_enabled : Bool
  width_px : Int
  height_px : Int
  idle_timeout_seconds : Int
  sleep_timeout_seconds : Int
  default_layout_id : Option String

structure Layout where
  id : String
  local_short_key : Option String
  name : String
  priority : String
  cooling_timeout_seconds : Option Int
  idle_timeout_seconds : Option Int
  preload_camera_ids : List String
  resets_idle_timer : Bool
  input_options_json : Record

structure LayoutCell where
  id : String
  entity_id : Option String
  row : Int
  col : Int
  row_span : Int
  col_span : Int
  content_type : String
  camera_id : Option String
  stream_selector : Option String
  web_url : Option String
  html_content : Option String
  cooling_timeout_seconds : Option Int
  fit : String
  options : Record
  input_options_json : Record
  text : noNul id ∧ NoNul (.obj options)

structure Entity where
  id : String
  name : String
  type : String
  camera_id : Option String
  web_url : Option String
  html_content : Option String
  dashboard_id : Option String
  ablesign_screen_id : Option String
  input_options_json : Record

structure AbleSignScreen where
  ablesign_screen_id : String
  ablesign_screen_token_encrypted : Option String

structure Camera where
  id : String
  local_short_key : Option String
  device_id : Option String
  name : String
  camera_number : Option String
  capabilities : List String
  enabled : Bool
  last_seen_at : Option String
  recording_config_json : Record
  type : String
  rtsp_url : Option String
  onvif_host : Option String
  onvif_port : Option Int
  onvif_username : Option String
  onvif_password : Option String
  event_source : String
  event_sink : String
  event_callback_nonce : Option String
  stream_policy : String
  text : noNul id

structure CameraStream where
  id : String
  role : String
  name : String
  profile_token : Option String
  rtsp_uri : String
  width : Option Int
  height : Option Int
  encoding : Option String
  framerate : Option Json.Num

structure GpioBinding where
  id : String
  chip : String
  pin : Int
  direction : String
  pull : Option String
  edge : Option String
  topic : String

/-- A state of the database, as the answers of the repository's queries. -/
structure Database where
  getKioskById : String → Option Kiosk
  listDisplaysForKiosk : String → List Display
  getDisplayById : String → Option Display
  layoutsForDisplayId : String → List Layout
  camerasForLayoutIds : List String → List Camera
  operateLabelIds : String → List String
  camerasForLabelIds : List String → List Camera
  listCameraDevices : List (String × String)
  getAbleSignScreen : String → Option AbleSignScreen
  listEntities : List Entity
  layoutCells : String → List LayoutCell
  getEntityById : String → Option Entity
  getCameraById : String → Option Camera
  listCameraStreams : String → List CameraStream
  cameraLabelNames : String → List String
  listGpioBindings : String → List GpioBinding

/-! ### Cryptography, URLs and collation -/

/-- A URL as the URL library parses it, without what is not read. -/
structure Url where
  protocol : String
  username : String
  password : String
  withoutCredentials : String

/-- What the code takes from outside: `decryptString` and `parseUrl` give nothing when they throw, a
key is usable when it has 32 bytes, and `onvifCallbackToken` is the token of a camera id and a
nonce. -/
structure Platform (Iv : Type) where
  sha256 : String → String
  decryptString : String → String → Option String
  usableKey : String → Bool
  encryptForCluster : Iv → String → String → String
  onvifCallbackToken : String → String → String
  parseUrl : String → Option Url
  decodeURIComponent : String → Option String
  localeLe : String → String → Bool

/-- The laws of the hash and the cipher: the hash is injective, and a ciphertext begins with its IV. -/
structure Platform.Lawful {Iv : Type} (P : Platform Iv) : Prop where
  sha256_inj : ∀ s t, P.sha256 s = P.sha256 t → s = t
  iv_inj : ∀ iv iv' s s' key key', P.encryptForCluster iv s key = P.encryptForCluster iv' s' key' → iv = iv'

/-- Where in the run something is encrypted, by the positions in the lists that are walked. -/
inductive Site where
  | step (display layout cell step : Nat)
  | onvif (camera : Nat)
  | playback (camera : Nat)
deriving DecidableEq

/-- What is random: the IV of each place, and the nonce of a camera that has none. -/
structure Draws (Iv : Type) where
  iv : Site → Iv
  nonce : String → String

/-- A secret of the bundle, and where it stands. -/
structure Secret where
  site : Site
  key : String
  stableContext : String
  plaintext : String
deriving DecidableEq

section
variable {Iv : Type} (P : Platform Iv)

/-- A part of the authority, decoded; an empty one is absent. -/
def decodePart (s : String) : Option (Option String) := if s = "" then some none
  else (P.decodeURIComponent s).map some

/-- The user name and the password of an RTSP URL. -/
def parseRtspUri (raw : Option String) : Option String × Option String :=
  match (truthy raw).bind P.parseUrl with
  | none => (none, none)
  | some url =>
    if url.protocol ≠ "rtsp:" then (none, none)
    else
      match decodePart P url.username, decodePart P url.password with
      | some username, some password => (username, password)
      | _, _ => (none, none)

/-- The address without its credentials. -/
def stripRtspCredentials (raw : String) : Option String :=
  if raw = "" then none
  else
    match P.parseUrl raw with
    | none => some raw
    | some url => if url.protocol ≠ "rtsp:" then some raw else some url.withoutCredentials

/-- The camera's own credentials, or else the first in its address and those of its streams. -/
def resolvePlaybackCredentials (cam : Camera) (streams : List CameraStream) : Option String × Option String :=
  if (truthy cam.onvif_username).isSome || (truthy cam.onvif_password).isSome then
    (cam.onvif_username, cam.onvif_password)
  else
    let candidates := (cam.rtsp_url :: streams.map fun s => some s.rtsp_uri).map (parseRtspUri P)
    (candidates.find? fun c => (truthy c.1).isSome || (truthy c.2).isSome).getD (none, none)

/-- Throws for a key that is not 32 bytes long. -/
def encryptForBundle (plaintext key stableContext : String) (site : Site) : Option Secret :=
  if P.usableKey key then some ⟨site, key, stableContext, plaintext⟩ else none

end

/-! ### Cells -/

/-- Truth of a value. -/
def isTrue : Json → Bool
  | .null => false
  | .bool b => b
  | .num n => n.lit ≠ ['0']
  | .str s => s ≠ ""
  | _ => true

/-- `{ ...s }`. -/
def spreadOf : Json → Record
  | .str s => s.toList.zipIdx.map fun (c, i) => (toString i, .str (String.singleton c))
  | j => j.spread

/-- The steps of logging in to a page, whose texts may be secret. -/
structure SmartUrl where
  steps : List (List (String × Doc Secret))
  login_detect_url : Option Json
  session_check_interval_ms : Option Json

/-- What is put into the local storage of a WebView before the page loads. -/
structure LocalStorage where
  screenId : String
  screenToken : Option String

structure BundleCell where
  view_id : String
  entity_id : Option String
  row : Int
  col : Int
  row_span : Int
  col_span : Int
  content_type : String
  camera_id : Option String
  stream_selector : Option String
  web_url : Option String
  html_content : Option String
  cooling_timeout_seconds : Option Int
  fit : String
  smart_url : Option SmartUrl
  local_storage : Option LocalStorage
  input_options : Option Record

structure BundleLayout where
  id : String
  local_short_key : Option String
  name : String
  grid_cols : Int
  grid_rows : Int
  priority : String
  cooling_timeout_seconds : Option Int
  idle_timeout_seconds : Option Int
  preload_camera_ids : List String
  resets_idle_timer : Bool
  is_default : Bool
  cells : List BundleCell
  input_options : Option Record

/-- What a cell takes from its entity. -/
structure EntityContent where
  contentType : String
  cameraId : Option String
  webUrl : Option String
  htmlContent : Option String
  localStorage : Option LocalStorage

section
variable {Iv : Type} (P : Platform Iv) (db : Database)

/-- The stable name of a step's secret. -/
def smartUrlContext (cellId : String) (step : Record) : String :=
  "smart-url:" ++ cellId ++ ":" ++ stringOf (Json.orElse ((Json.obj step).get? "selector") (.str ""))

/-- A step as it goes out: the value of a `fill` is encrypted. The cipher takes strings only. -/
def buildStep (ek : Option String) (cellId : String) (s : Json) (site : Site) :
    Option (List (String × Doc Secret)) :=
  let step := spreadOf s
  let plain := some (Doc.ofMembers step)
  match (Json.obj step).get? "value", ek with
  | some value, some ek =>
    if isTrue value && ((Json.obj step).get? "type").bind Json.asStr? = some "fill" then
      match value with
      | .str plaintext =>
        (encryptForBundle P plaintext ek (smartUrlContext cellId step) site).map
          fun sealed => (Doc.assign (Doc.ofMembers step) "value_encrypted" (.hole sealed)).filter fun m =>
            m.1 ≠ "value"
      | _ => none
    else plain
  | _, _ => plain

/-- A cell's scripted page, its secrets encrypted; the outer `none` is an exception. -/
def buildSmartUrl (viewer : Bool) (ek : Option String) (c : LayoutCell) (site : Nat → Site) :
    Option (Option SmartUrl) :=
  match (Json.obj c.options).get? "smart_url" with
  | none => some none
  | some raw =>
    if !isTrue raw then some none
    else if viewer then some (some ⟨[], none, none⟩)
    else
      let steps := match raw.get? "steps" with
        | some (.arr ss) => ss.zipIdx.mapM fun (s, i) => buildStep P ek c.id s (site i)
        | _ => some []
      steps.map fun steps => some ⟨steps, raw.get? "login_detect_url", raw.get? "session_check_interval_ms"⟩

/-- What a cell shows of an entity. -/
def resolveEntityContent (ent : Entity) : EntityContent where
  contentType := if ent.type = "dashboard" ∨ ent.type = "ablesign" then "web" else ent.type
  cameraId := if ent.type = "camera" then ent.camera_id else none
  webUrl :=
    if ent.type = "web" ∨ ent.type = "ablesign" then ent.web_url
    else if ent.type = "dashboard" then (truthy ent.dashboard_id).map ("/dash/" ++ ·)
    else none
  htmlContent := if ent.type = "html" then ent.html_content else none
  localStorage :=
    if ent.type = "ablesign" then
      ((truthy ent.ablesign_screen_id).bind db.getAbleSignScreen).map fun screen =>
        ⟨screen.ablesign_screen_id,
          (truthy screen.ablesign_screen_token_encrypted).bind (P.decryptString · "ablesign-token")⟩
    else none

/-- A cell with its entity's content, or its own when it has none. -/
def buildCell (viewer : Bool) (ek : Option String) (c : LayoutCell) (site : Nat → Site) : Option BundleCell :=
  let (content, inputOptions) : EntityContent × Record :=
    match c.entity_id.bind db.getEntityById with
    | none => (⟨c.content_type, c.camera_id, c.web_url, c.html_content, none⟩, c.input_options_json)
    | some ent =>
      (resolveEntityContent P db ent, if ent.input_options_json ≠ [] then ent.input_options_json
        else c.input_options_json)
  (buildSmartUrl P viewer ek c site).map fun smartUrl =>
    { view_id := c.id
      entity_id := c.entity_id
      row := c.row
      col := c.col
      row_span := c.row_span
      col_span := c.col_span
      content_type := content.contentType
      camera_id := content.cameraId
      stream_selector := c.stream_selector
      web_url := content.webUrl
      html_content := content.htmlContent
      cooling_timeout_seconds := c.cooling_timeout_seconds
      fit := c.fit
      smart_url := smartUrl
      local_storage := content.localStorage
      input_options := some inputOptions }

/-! ### Layouts -/

/-- `max` over the cells of their right or bottom edges, at least 1. -/
def gridSize (edge : LayoutCell → Int) (cells : List LayoutCell) : Int :=
  cells.foldl (fun size c => if edge c > size then edge c else size) 1

/-- The layout that shows the entity of a cell alone. -/
def fullScreen (viewer : Bool) (l : Layout) (ent : Entity) (cell : BundleCell) : BundleLayout where
  id := ent.id
  local_short_key := none
  name := "Full Screen: " ++ ent.name
  grid_cols := 1
  grid_rows := 1
  priority := "normal"
  cooling_timeout_seconds := l.cooling_timeout_seconds
  idle_timeout_seconds := l.idle_timeout_seconds
  preload_camera_ids := []
  resets_idle_timer := true
  is_default := false
  cells :=
    [{ cell with
        view_id := "virtual:" ++ ent.id
        row := 0
        col := 0
        row_span := 1
        col_span := 1
        input_options := some ((cell.input_options.getD []).filter fun m => m.1 ≠ "events") }]
  input_options := if viewer then none else some ent.input_options_json

/-- The layout of an entity that the operator console shows although no cell does. -/
def operatorLayout (viewer : Bool) (ent : Entity) : BundleLayout :=
  let content := resolveEntityContent P db ent
  { id := ent.id
    local_short_key := none
    name := "Full Screen: " ++ ent.name
    grid_cols := 1
    grid_rows := 1
    priority := "normal"
    cooling_timeout_seconds := none
    idle_timeout_seconds := none
    preload_camera_ids := []
    resets_idle_timer := true
    is_default := false
    cells :=
      [{ view_id := "operator:" ++ ent.id
         entity_id := some ent.id
         row := 0
         col := 0
         row_span := 1
         col_span := 1
         content_type := content.contentType
         camera_id := content.cameraId
         stream_selector := none
         web_url := content.webUrl
         html_content := content.htmlContent
         cooling_timeout_seconds := none
         fit := "contain"
         smart_url := none
         local_storage := content.localStorage
         input_options := if viewer then none else some ent.input_options_json }]
    input_options := if viewer then none else some ent.input_options_json }

/-- A layout of the display with its cells, as rows and as they go out. -/
abbrev Built := Layout × List (LayoutCell × BundleCell)

/-- A layout's cells, in the order the repository lists them. -/
def buildLayout (viewer : Bool) (ek : Option String) (l : Layout) (site : Nat → Nat → Site) : Option Built :=
  ((db.layoutCells l.id).zipIdx.mapM fun (c, i) => (buildCell P db viewer ek c (site i)).map fun cell =>
    (c, cell)).map
    fun cells => (l, cells)

/-- A stored layout as the bundle has it. -/
def realLayout (viewer : Bool) (defaultLayoutId : Option String) (b : Built) : BundleLayout where
  id := b.1.id
  local_short_key := b.1.local_short_key
  name := b.1.name
  grid_cols := gridSize (fun c => c.col + c.col_span) (b.2.map Prod.fst)
  grid_rows := gridSize (fun c => c.row + c.row_span) (b.2.map Prod.fst)
  priority := b.1.priority
  cooling_timeout_seconds := b.1.cooling_timeout_seconds
  idle_timeout_seconds := b.1.idle_timeout_seconds
  preload_camera_ids := if viewer then [] else b.1.preload_camera_ids
  resets_idle_timer := b.1.resets_idle_timer
  is_default := defaultLayoutId = some b.1.id
  cells := b.2.map Prod.snd
  input_options := if viewer then none else some b.1.input_options_json

/-- Adds to `virtualLayouts`, a map from entity ids, what a cell that shows an entity adds to it. -/
def addFullScreen (viewer : Bool) (l : Layout) (virtualLayouts : List (String × BundleLayout))
    (c : LayoutCell × BundleCell) :
    List (String × BundleLayout) :=
  match c.1.entity_id with
  | none => virtualLayouts
  | some entityId =>
    if entityId ∈ virtualLayouts.map Prod.fst then virtualLayouts
    else
      match db.getEntityById entityId with
      | none => virtualLayouts
      | some ent => virtualLayouts ++ [(entityId, fullScreen viewer l ent c.2)]

/-- The layout of an entity that the operator may open, once. -/
def addOperator (viewer : Bool) (virtualLayouts : List (String × BundleLayout)) (ent : Entity) :
    List (String × BundleLayout) :=
  if ent.id ∈ virtualLayouts.map Prod.fst then virtualLayouts
  else virtualLayouts ++ [(ent.id, operatorLayout P db viewer ent)]

/-- Retain only local viewer click actions; never distribute script parameters. -/
def viewerInputOptions (options : Option Record) (layoutIds : List String) : Option Record :=
  let click := ((options.bind fun o => (Json.obj o).get? "events").bind (Json.get? "click")).filter fun c =>
    isTrue c
  click.map fun click =>
    let action := stringOf (Json.orElse (click.get? "action") (.str ""))
    let clickOf (params : Record) (action : String) : Record :=
      [("events", .obj [("click", .obj [("action", .str action), ("params", .obj params)])])]
    if action ∈ ["expand", "view.expand", "restore", "view.restore"] then clickOf [] action
    else
      match (click.get? "params").bind (Json.get? "layout_id") with
      | some (.str id) =>
        if action = "layout.switch" ∧ id ∈ layoutIds then clickOf [("layout_id", .str id)] action
        else clickOf [] "unsupported"
      | some (.num n) =>
        if action = "layout.switch" ∧ stringOf (.num n) ∈ layoutIds then
          clickOf [("layout_id", .str (stringOf (.num n)))] action
        else clickOf [] "unsupported"
      | _ => clickOf [] "unsupported"

def viewerLayout (layoutIds : List String) (l : BundleLayout) : BundleLayout :=
  { l with
    cells := l.cells.map fun c => { c with input_options := viewerInputOptions c.input_options layoutIds }
    input_options := none }

/-- The layouts the bundle adds to the stored ones. -/
def virtualLayouts (viewer : Bool) (operatorContent : List Entity) (built : List Built) :
    List (String × BundleLayout) :=
  operatorContent.foldl (addOperator P db viewer)
    (built.foldl (fun acc b => b.2.foldl (addFullScreen db viewer b.1) acc) [])

/-- The virtual layouts come behind the real ones, unless a real one has the id of the entity. -/
def withVirtual (real : List BundleLayout) (virtualLayouts : List (String × BundleLayout)) :
    List BundleLayout :=
  real ++ (virtualLayouts.filter fun v => v.1 ∉ real.map BundleLayout.id).map Prod.snd

/-- The layouts of a display, the virtual ones last. -/
def buildLayouts (viewer : Bool) (ek : Option String) (operatorContent : List Entity) (displayId : String)
    (defaultLayoutId : Option String) (site : Nat → Nat → Nat → Site) : Option (List BundleLayout) :=
  ((db.layoutsForDisplayId displayId).zipIdx.mapM fun (l, i) => buildLayout P db viewer ek l (site i)).map
      fun (built : List Built) =>
    let result := withVirtual (built.map (realLayout viewer defaultLayoutId))
      (virtualLayouts P db viewer operatorContent built)
    if viewer then result.map (viewerLayout (result.map BundleLayout.id)) else result

/-! ### Displays and cameras -/

structure BundleDisplay where
  id : String
  name : String
  width_px : Int
  height_px : Int
  idle_timeout_seconds : Int
  sleep_timeout_seconds : Int
  default_layout_id : Option String
  layouts : List BundleLayout

def stripDisplayKioskPrefix (displayName kioskName : String) : String :=
  let pre := (kioskName ++ ": ").toList
  if pre.isPrefixOf displayName.toList then String.ofList (displayName.toList.drop pre.length)
  else displayName

/-- A display with its layouts. -/
def buildDisplay (viewer : Bool) (ek : Option String) (operatorContent : List Entity)
    (kioskName : String) (d : Display) (site : Nat → Nat → Nat → Site) : Option BundleDisplay :=
  (buildLayouts P db viewer ek operatorContent d.id d.default_layout_id site).map fun layouts =>
    { id := d.id
      name := stripDisplayKioskPrefix d.name kioskName
      width_px := d.width_px
      height_px := d.height_px
      idle_timeout_seconds := d.idle_timeout_seconds
      sleep_timeout_seconds := d.sleep_timeout_seconds
      default_layout_id := d.default_layout_id
      layouts := layouts }

structure BundleCamera where
  local_short_key : Option String
  id : String
  device_id : Option String
  device_name : Option String
  name : String
  camera_number : Option String
  labels : List String
  capabilities : List String
  enabled : Bool
  last_seen_at : Option String
  simple_vms_managed : Bool
  recording_config : Record
  type : String
  onvif_host : Option String
  onvif_port : Option Int
  onvif_username : Option String
  onvif_password_encrypted : Option Secret
  playback_username : Option String
  playback_password_encrypted : Option Secret
  event_source : String
  event_sink : String
  event_callback_token : String
  stream_policy : String
  streams : List CameraStream

/-- `map.set(cam.id, cam)`, for a map that is listed in the order of its insertions. -/
def setCamera (cameras : List Camera) (cam : Camera) : List Camera :=
  if cameras.any fun c => c.id = cam.id then cameras.map fun c => if c.id = cam.id then cam else c
  else cameras ++ [cam]

def sortByName (cameras : List Camera) : List Camera :=
  cameras.insertionSort fun a b => P.localeLe a.name b.name

/-- The displays of the kiosk, or the one it was paired with. -/
def enabledDisplays (kioskId : String) (kiosk : Kiosk) (viewer : Bool) : List Display :=
  let kioskDisplays := db.listDisplaysForKiosk kioskId
  let allDisplays :=
    if kioskDisplays ≠ [] then kioskDisplays else ((truthy kiosk.display_id).bind db.getDisplayById).toList
  let enabled := allDisplays.filter (·.is_enabled)
  if viewer then enabled.take 1 else enabled

def operateCameras (kioskId : String) : List Camera := db.camerasForLabelIds (db.operateLabelIds kioskId)

/-- The cameras of a kiosk that is no viewer: those of its layouts and those of its operate labels. -/
def kioskCameras (kioskId : String) (displays : List Display) : List Camera :=
  let allLayoutIds := (displays.flatMap fun d => (db.layoutsForDisplayId d.id).map Layout.id).eraseDups
  sortByName P ((db.camerasForLayoutIds allLayoutIds ++ operateCameras db kioskId).foldl setCamera [])

/-- The cameras of a viewer: those that its cells show. -/
def viewerCameras (displays : List BundleDisplay) : List Camera :=
  let assignedIds := (displays.flatMap fun d => d.layouts.flatMap fun l => l.cells.flatMap fun c =>
    if c.content_type = "camera" then (truthy c.camera_id).toList else []).eraseDups
  sortByName P ((assignedIds.filterMap db.getCameraById).filter (·.enabled))

/-- The stored streams, or the one an RTSP camera has in its own row. -/
def effectiveStreams (cam : Camera) : List CameraStream :=
  let streams := db.listCameraStreams cam.id
  if streams ≠ [] then streams
  else if cam.type = "rtsp" then
    ((truthy cam.rtsp_url).map fun url =>
      { id := ""
        role := "main"
        name := "Main"
        profile_token := none
        rtsp_uri := (stripRtspCredentials P url).getD url
        width := none
        height := none
        encoding := none
        framerate := none : CameraStream }).toList
  else []

/-- A password as it goes out: nothing when it is empty or there is no key. -/
def sealPassword (password ek : Option String) (stableContext : String) (site : Site) :
    Option (Option Secret) :=
  match truthy password, ek with
  | some password, some ek => (encryptForBundle P password ek stableContext site).map some
  | _, _ => some none

/-- A camera with its streams and its passwords encrypted. -/
def buildCamera (draws : Draws Iv) (kioskId : String) (viewer : Bool) (ek : Option String)
    (cam : Camera) (position : Nat) :
    Option BundleCamera := do
  let streams := effectiveStreams P db cam
  let playbackCreds := resolvePlaybackCredentials P cam streams
  let onvifPwEncrypted ←
    sealPassword P (if viewer then none else cam.onvif_password) ek ("onvif:" ++ cam.id) (.onvif position)
  let playbackPwEncrypted ← sealPassword P playbackCreds.2 ek ("playback:" ++ cam.id) (.playback position)
  return {
    id := cam.id
    local_short_key := cam.local_short_key
    device_id := cam.device_id
    device_name := (truthy cam.device_id).bind fun id =>
      (db.listCameraDevices.reverse.find? fun d => d.1 = id).map Prod.snd
    name := cam.name
    camera_number := cam.camera_number
    labels := db.cameraLabelNames cam.id
    capabilities := if viewer then [] else cam.capabilities
    enabled := cam.enabled
    last_seen_at := cam.last_seen_at
    simple_vms_managed := (if viewer then [] else operateCameras db kioskId).any fun c => c.id = cam.id
    recording_config := if viewer then [] else cam.recording_config_json
    type := cam.type
    onvif_host := if viewer then none else cam.onvif_host
    onvif_port := if viewer then none else cam.onvif_port
    onvif_username := if viewer then none else cam.onvif_username
    onvif_password_encrypted := onvifPwEncrypted
    playback_username := playbackCreds.1
    playback_password_encrypted := playbackPwEncrypted
    event_source :=
      if viewer then "disabled"
      else if cam.type = "onvif" ∧ cam.event_source = "auto" then "kiosk:" ++ kioskId else cam.event_source
    event_sink := if viewer then "none" else cam.event_sink
    event_callback_token :=
      if viewer then "" else P.onvifCallbackToken cam.id (cam.event_callback_nonce.getD (draws.nonce cam.id))
    stream_policy := cam.stream_policy
    streams := streams.map fun s =>
      { s with
        profile_token := if viewer then none else s.profile_token
        rtsp_uri := (stripRtspCredentials P s.rtsp_uri).getD s.rtsp_uri } }

/-! ### The bundle -/

structure KioskBundle where
  kiosk_id : String
  kiosk_name : String
  display : BundleDisplay
  displays : List BundleDisplay
  cameras : List BundleCamera
  gpio_bindings : List GpioBinding
  operator_enabled : Bool
  operator_host : Option String
  operator_port : Int
  operator_tools : List (String × String)
  simple_vms_enabled : Bool
  simple_vms_storage_path : Option String
  simple_vms_settings : Record

/-- A stored object; anything else counts as empty. -/
def parseJsonObject (raw : Option String) : Record :=
  match (truthy raw).bind Json.parse with
  | some (.obj ms) => ms
  | _ => []

/-- Whether the text begins with `http://` or `https://`, in any case. -/
def isHttpUrl (s : String) : Bool :=
  let lower := s.toList.map Char.toLower
  "http://".toList.isPrefixOf lower || "https://".toList.isPrefixOf lower

/-- The tools with a label and an HTTP address. -/
def parseOperatorTools (raw : Option String) : List (String × String) :=
  match (truthy raw).bind Json.parse with
  | some (.arr items) => items.filterMap fun item =>
    let text (k : String) := trim (stringOf (Json.orElse (item.get? k) (.str "")))
    if text "label" ≠ "" ∧ isHttpUrl (text "url") then some (text "label", text "url") else none
  | _ => []

end

/-- One run of `generateBundle`. -/
structure Call (Iv : Type) where
  db : Database
  clusterKey : Option String
  draws : Draws Iv

section
variable {Iv : Type} (P : Platform Iv)

/-- The whole bundle up to its version. -/
def assemble (c : Call Iv) (kioskId : String) : Option (Option KioskBundle) :=
  match c.db.getKioskById kioskId with
  | none => some none
  | some kiosk =>
    let viewer : Bool := "android-viewer" ∈ kiosk.capabilities
    let kioskEncryptKey := (truthy kiosk.encrypt_key_encrypted).bind (P.decryptString · "kiosk-encrypt")
    let displays := enabledDisplays c.db kioskId kiosk viewer
    if displays = [] then some none
    else if viewer && (truthy kioskEncryptKey).isNone then none
    else
      let ek := truthy (kioskEncryptKey.or c.clusterKey)
      let operatorContent :=
        if !viewer && kiosk.operator_console_enabled then c.db.listEntities.filter fun e =>
          e.type ≠ "camera" else []
      do
        let bundleDisplays ← displays.zipIdx.mapM fun (d, i) =>
          buildDisplay P c.db viewer ek operatorContent kiosk.name d (Site.step i)
        let cameras := if viewer then viewerCameras P c.db bundleDisplays
          else kioskCameras P c.db kioskId displays
        let bundleCameras ← cameras.zipIdx.mapM fun (cam, i) =>
          buildCamera P c.db c.draws kioskId viewer ek cam i
        let primary ← bundleDisplays.head?
        return some {
          kiosk_id := kioskId
          kiosk_name := kiosk.name
          display := primary
          displays := bundleDisplays
          cameras := bundleCameras
          gpio_bindings := if viewer then [] else c.db.listGpioBindings kioskId
          operator_enabled := !viewer && kiosk.operator_console_enabled
          operator_host := if viewer then none else kiosk.operator_console_host
          operator_port := kiosk.operator_console_port
          operator_tools := if viewer then [] else parseOperatorTools kiosk.operator_tools_json
          simple_vms_enabled := !viewer && kiosk.simple_vms_enabled
          simple_vms_storage_path := if viewer then none else kiosk.simple_vms_storage_path
          simple_vms_settings := if viewer then [] else parseJsonObject kiosk.simple_vms_settings_json }

/-! ### As JSON -/

def orNull {α : Type} (f : α → Doc Secret) : Option α → Doc Secret
  | none => .null
  | some a => f a

def int (n : Int) : Doc Secret := .ofJson (.ofInt n)

def texts (ss : List String) : Doc Secret := .arr (ss.map .str)

def record (r : Record) : Doc Secret := .ofJson (.obj r)

def SmartUrl.doc (u : SmartUrl) : Doc Secret := .obj (Doc.object
  [("steps", some (.arr (u.steps.map .obj))),
    ("login_detect_url", u.login_detect_url.map .ofJson),
    ("session_check_interval_ms", u.session_check_interval_ms.map .ofJson)])

def LocalStorage.doc (s : LocalStorage) : Doc Secret := .obj (Doc.object
  [("screenId", some (.str s.screenId)),
    ("screenToken", s.screenToken.map .str)])

def BundleCell.doc (c : BundleCell) : Doc Secret := .obj (Doc.object
  [("view_id", some (.str c.view_id)),
    ("entity_id", some (orNull .str c.entity_id)),
    ("row", some (int c.row)),
    ("col", some (int c.col)),
    ("row_span", some (int c.row_span)),
    ("col_span", some (int c.col_span)),
    ("content_type", some (.str c.content_type)),
    ("camera_id", some (orNull .str c.camera_id)),
    ("stream_selector", some (orNull .str c.stream_selector)),
    ("web_url", some (orNull .str c.web_url)),
    ("html_content", some (orNull .str c.html_content)),
    ("cooling_timeout_seconds", some (orNull int c.cooling_timeout_seconds)),
    ("fit", some (.str c.fit)),
    ("smart_url", c.smart_url.map SmartUrl.doc),
    ("local_storage", c.local_storage.map LocalStorage.doc),
    ("input_options", c.input_options.map record)])

def BundleLayout.doc (l : BundleLayout) : Doc Secret := .obj (Doc.object
  [("id", some (.str l.id)),
    ("local_short_key", l.local_short_key.map .str),
    ("name", some (.str l.name)),
    ("grid_cols", some (int l.grid_cols)),
    ("grid_rows", some (int l.grid_rows)),
    ("priority", some (.str l.priority)),
    ("cooling_timeout_seconds", some (orNull int l.cooling_timeout_seconds)),
    ("idle_timeout_seconds", some (orNull int l.idle_timeout_seconds)),
    ("preload_camera_ids", some (texts l.preload_camera_ids)),
    ("resets_idle_timer", some (.bool l.resets_idle_timer)),
    ("is_default", some (.bool l.is_default)),
    ("cells", some (.arr (l.cells.map BundleCell.doc))),
    ("input_options", l.input_options.map record)])

def layoutsDoc (ls : List BundleLayout) : Doc Secret := .arr (ls.map BundleLayout.doc)

def BundleDisplay.fields (d : BundleDisplay) : List (String × Option (Doc Secret)) :=
  [("id", some (.str d.id)),
    ("name", some (.str d.name)),
    ("width_px", some (int d.width_px)),
    ("height_px", some (int d.height_px)),
    ("idle_timeout_seconds", some (int d.idle_timeout_seconds)),
    ("sleep_timeout_seconds", some (int d.sleep_timeout_seconds)),
    ("default_layout_id", some (orNull .str d.default_layout_id))]

def BundleDisplay.doc (d : BundleDisplay) : Doc Secret :=
  .obj (Doc.object (d.fields ++ [("layouts", some (layoutsDoc d.layouts))]))

def streamDoc (s : CameraStream) : Doc Secret := .obj (Doc.object
  [("id", some (.str s.id)),
    ("role", some (.str s.role)),
    ("name", some (.str s.name)),
    ("profile_token", some (orNull .str s.profile_token)),
    ("rtsp_uri", some (.str s.rtsp_uri)),
    ("width", some (orNull int s.width)),
    ("height", some (orNull int s.height)),
    ("encoding", some (orNull .str s.encoding)),
    ("framerate", some (orNull .num s.framerate))])

def BundleCamera.doc (c : BundleCamera) : Doc Secret := .obj (Doc.object
  [("id", some (.str c.id)),
    ("local_short_key", c.local_short_key.map .str),
    ("device_id", some (orNull .str c.device_id)),
    ("device_name", some (orNull .str c.device_name)),
    ("name", some (.str c.name)),
    ("camera_number", some (orNull .str c.camera_number)),
    ("labels", some (texts c.labels)),
    ("capabilities", some (texts c.capabilities)),
    ("enabled", some (.bool c.enabled)),
    ("last_seen_at", some (orNull .str c.last_seen_at)),
    ("simple_vms_managed", some (.bool c.simple_vms_managed)),
    ("recording_config", some (record c.recording_config)),
    ("type", some (.str c.type)),
    ("onvif_host", some (orNull .str c.onvif_host)),
    ("onvif_port", some (orNull int c.onvif_port)),
    ("onvif_username", some (orNull .str c.onvif_username)),
    ("onvif_password_encrypted", some (orNull .hole c.onvif_password_encrypted)),
    ("playback_username", some (orNull .str c.playback_username)),
    ("playback_password_encrypted", some (orNull .hole c.playback_password_encrypted)),
    ("event_source", some (.str c.event_source)),
    ("event_sink", some (.str c.event_sink)),
    ("event_callback_token", some (.str c.event_callback_token)),
    ("stream_policy", some (.str c.stream_policy)),
    ("streams", some (.arr (c.streams.map streamDoc)))])

def gpioDoc (g : GpioBinding) : Doc Secret := .obj (Doc.object
  [("id", some (.str g.id)),
    ("chip", some (.str g.chip)),
    ("pin", some (int g.pin)),
    ("direction", some (.str g.direction)),
    ("pull", some (orNull .str g.pull)),
    ("edge", some (orNull .str g.edge)),
    ("topic", some (.str g.topic))])

def operatorConsoleDoc (b : KioskBundle) : Doc Secret := .obj (Doc.object
  [("enabled", some (.bool b.operator_enabled)),
    ("host", some (orNull .str b.operator_host)),
    ("port", some (int b.operator_port)),
    ("tools", some (.arr (b.operator_tools.map fun t => .obj [("label", .str t.1), ("url", .str t.2)]))),
    ("simple_vms", some (.obj (Doc.object
      [("enabled", some (.bool b.simple_vms_enabled)),
        ("storage_path", some (orNull .str b.simple_vms_storage_path)),
        ("settings", some (record b.simple_vms_settings))])))])

/-- The members of the bundle up to its version. -/
def KioskBundle.content (b : KioskBundle) : List (String × Doc Secret) := Doc.object
  [("kiosk_id", some (.str b.kiosk_id)),
    ("kiosk_name", some (.str b.kiosk_name)),
    ("tenant_slug", some (.str "default")),
    ("display", some (.obj (Doc.object b.display.fields))),
    ("layouts", some (layoutsDoc b.display.layouts)),
    ("displays", some (.arr (b.displays.map BundleDisplay.doc))),
    ("cameras", some (.arr (b.cameras.map BundleCamera.doc))),
    ("gpio_bindings", some (.arr (b.gpio_bindings.map gpioDoc))),
    ("operator_console", some (operatorConsoleDoc b))]

/-! ### The version -/

def isEncryptedKey (k : String) : Bool := "_encrypted".toList.isSuffixOf k.toList

def stableSecretFingerprint (context plaintext : String) : String :=
  "secret:" ++ P.sha256 (context ++ "\x00" ++ plaintext)

mutual

/-- `JSON.stringify` does not print what `out["__proto__"] = …` sets, the prototype of `out`. -/
def stableBundleForVersion (encryptedValues : String → Option String) : Json → Json
  | .arr xs => .arr (stableItems encryptedValues xs)
  | .obj ms => .obj (stableMembers encryptedValues ms)
  | j => j

/-- The elements as `stableBundleForVersion` leaves them. -/
def stableItems (encryptedValues : String → Option String) : List Json → List Json
  | [] => []
  | x :: xs => stableBundleForVersion encryptedValues x :: stableItems encryptedValues xs

/-- The members as `stableBundleForVersion` leaves them. -/
def stableMembers (encryptedValues : String → Option String) : Record → Record
  | [] => []
  | (key, raw) :: ms =>
    let rest := stableMembers encryptedValues ms
    if key = "version" then (key, .str "") :: rest
    else if key = "__proto__" then rest
    else
      match raw with
      | .str s =>
        if isEncryptedKey key then (key, .str ((encryptedValues s).getD s)) :: rest
        else (key, .str s) :: rest
      | raw => (key, stableBundleForVersion encryptedValues raw) :: rest

end

/-- The secret under the nonce drawn for its place. -/
def Draws.ciphertext (draws : Draws Iv) (s : Secret) : String :=
  P.encryptForCluster (draws.iv s.site) s.plaintext s.key

/-- What stands for the secret in the version's text. -/
def Secret.fingerprint (s : Secret) : String := stableSecretFingerprint P s.stableContext s.plaintext

/-- `stableEncryptedValues.get(raw)`. The secrets of a bundle stand in it in the order of their
encryption, copies of a cell behind the cell. -/
def stableEncryptedValue (draws : Draws Iv) (secrets : List Secret) (raw : String) : Option String :=
  (secrets.eraseDups.reverse.find? fun s => draws.ciphertext P s = raw).map (Secret.fingerprint P)

/-- A bundle that has been generated. `content` is what was assembled, `version` the hash. -/
structure Generated where
  content : List (String × Doc Secret)
  sent : Record
  version : String

/-- The secrets of the bundle, in the order of its text. -/
def Generated.secrets (g : Generated) : List Secret := (Doc.obj g.content).holes

/-- What is sent, with every encrypted value replaced by what it encrypts. -/
def Generated.revealed (g : Generated) : Doc String := (Doc.obj g.content).map Secret.plaintext

/-- The bundle as it is sent. -/
def Generated.json (g : Generated) : Json := .obj (g.sent ++ [("version", .str g.version)])

/-- The bundle's text and its version, which is a digest of the stable form. -/
def serialize (draws : Draws Iv) (b : KioskBundle) : Generated :=
  let sent := b.content.map fun m => (m.1, m.2.fill fun s => .str (draws.ciphertext P s))
  let encryptedValues := stableEncryptedValue P draws (Doc.obj b.content).holes
  let stable := stableBundleForVersion encryptedValues (.obj (sent ++ [("version", .str "")]))
  ⟨b.content, sent, P.sha256 stable.stringify⟩

/-- The bundle of a kiosk; the outer `none` is an exception, the inner one an unknown kiosk. -/
def generateBundle (c : Call Iv) (kioskId : String) : Option (Option Generated) :=
  (assemble P c kioskId).map fun bundle => bundle.map (serialize P c.draws)

def Generated.etag (g : Generated) : String := "\"" ++ g.version ++ "\""

/-- The answer to a kiosk that may name the version it has. -/
def bundleResponse (ifNoneMatch : Option String) (g : Generated) : Nat × Option String :=
  if ifNoneMatch = some g.etag then (304, none) else (200, some g.json.stringify)

end

end Bundle
