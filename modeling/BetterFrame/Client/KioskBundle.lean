import BetterFrame.Lib.Json
import Mathlib.Data.Rat.Defs
import Mathlib.Algebra.Order.Ring.Rat

/-!
# The bundle of a kiosk

The part of `core/src/bundle.rs` that a display is drawn from and recordings are made from, and the
choice of a camera's stream. The members of a JSON value and the entries of `local_storage` are in
the order of their keys.
-/

structure BundleStream where
  role : String
  rtsp_uri : String
deriving DecidableEq

structure BundleCamera where
  id : String
  name : String
  enabled : Bool
  simple_vms_managed : Bool
  recording_config : Json
  rtsp_url : Option String
  streams : List BundleStream
  playback_username : Option String
  playback_password_encrypted : Option String
  onvif_password_encrypted : Option String
deriving DecidableEq

/-- A step of logging in to a web page. -/
structure SmartUrlStep where
  step_type : String
  url : Option String
  selector : Option String
  value : Option String
  value_encrypted : Option String
  delay_ms : Option Nat
  timeout_ms : Option Nat
  script : Option String
deriving DecidableEq

/-- How a web page is logged in to. -/
structure SmartUrlConfig where
  steps : List SmartUrlStep
  login_detect_url : Option String
  session_check_interval_ms : Option Nat
deriving DecidableEq

structure BundleCell where
  view_id : Option String
  entity_id : Option String
  row : Nat
  col : Nat
  row_span : Nat
  col_span : Nat
  content_type : String
  camera_id : Option String
  stream_selector : Option String
  web_url : Option String
  html_content : Option String
  cooling_timeout_seconds : Option Nat
  fit : String
  smart_url : Option SmartUrlConfig
  local_storage : Option (List (String × String))
  input_options : Option Json
deriving DecidableEq

structure BundleLayout where
  local_short_key : Option String
  id : String
  name : String
  grid_cols : Nat
  grid_rows : Nat
  priority : String
  cooling_timeout_seconds : Option Nat
  idle_timeout_seconds : Option Nat
  preload_camera_ids : List String
  is_default : Bool
  resets_idle_timer : Bool
  input_options : Option Json
  cells : List BundleCell
deriving DecidableEq

structure BundleDisplay where
  id : String
  name : String
  width_px : Nat
  height_px : Nat
  idle_timeout_seconds : Nat
  sleep_timeout_seconds : Nat
  default_layout_id : Option String
deriving DecidableEq

structure BundleDisplayWithLayouts extends BundleDisplay where
  layouts : List BundleLayout
deriving DecidableEq

/-- A link on the operator's console. -/
structure OperatorTool where
  label : String
  url : String
deriving DecidableEq

/-- Whether and where cameras are recorded. -/
structure SimpleVmsConfig where
  enabled : Bool
  storage_path : Option String
  settings : Json
deriving DecidableEq

structure OperatorConsoleConfig where
  enabled : Bool
  host : Option String
  port : Nat
  tools : List OperatorTool
  simple_vms : SimpleVmsConfig
deriving DecidableEq

/-- What the server sends to a kiosk. -/
structure KioskBundle where
  tenant_slug : String
  display : Option BundleDisplay
  layouts : List BundleLayout
  displays : List BundleDisplayWithLayouts
  cameras : List BundleCamera
  operator_console : OperatorConsoleConfig
deriving DecidableEq

namespace KioskBundle

/-- An old server sends one display, with its layouts beside it. -/
def normalized_displays (bundle : KioskBundle) : List BundleDisplayWithLayouts :=
  if bundle.displays ≠ [] then bundle.displays
  else match bundle.display with
    | some d => [⟨d, bundle.layouts⟩]
    | none => []

end KioskBundle

namespace BundleCamera

variable (camera : BundleCamera)

def hasRole (role : String) : Bool := camera.streams.any (·.role = role)

def withRole (role : String) : Option BundleStream := camera.streams.find? (·.role = role)

/-- The `f32` next to 0.2. -/
def largeArea : ℚ := 13421773 / 67108864

/-- `area_fraction` is the value of the `f32`. -/
def rolePreference (selector : Option String) (area_fraction : ℚ) : String :=
  match selector.getD "auto" with
  | "main" => "main"
  | "sub" => "sub"
  | _ => if largeArea ≤ area_fraction then "main" else "sub"

/-- The stream a tile plays, with the badge that names its role. -/
def pick_stream (selector : Option String) (area_fraction : ℚ) : Option (String × Char) :=
  let multi := camera.hasRole "main" && camera.hasRole "sub"
  let stream := ((camera.withRole (rolePreference selector area_fraction)).or (camera.withRole "main")).or
    camera.streams.head?
  let badge := if !multi then ' ' else if stream.map (·.role) = some "main" then 'M' else 'S'
  ((stream.map (·.rtsp_uri)).or camera.rtsp_url).map fun uri => (uri, badge)

/-- Only where main and sub streams have URLs of their own. -/
def main_fallback_uri : Option String :=
  (camera.withRole "sub").bind fun sub =>
    (camera.withRole "main").bind fun main =>
      if main.rtsp_uri ≠ "" ∧ main.rtsp_uri ≠ sub.rtsp_uri then some main.rtsp_uri else none

end BundleCamera
