import BetterFrame.Client.DisplayLayout
import BetterFrame.Lib.Traversal
import Mathlib.Data.List.Nodup
import Mathlib.Logic.Equiv.Basic

/-!
# Refreshing a display

`render_comparison_bundle` and `can_preserve_display` of `ui.rs`, `camera_pipeline_inputs` to
`unchanged_camera_ids` of `core/src/layout.rs`. `refresh_faithful` says when a display that is kept
shows what the new bundle gives.
-/

namespace DisplayRefresh

/-- `sha256` gives the digest's hexadecimal text. -/
structure Keys where
  decrypt_cluster_public : String → String → Option String
  sha256 : String → String
  decrypt_key : Option String

variable (keys : Keys)

/-! ### Comparison copies -/

def Keys.decrypt (ciphertext : String) : Option String :=
  keys.decrypt_key.bind (keys.decrypt_cluster_public ciphertext)

/-- What stands for a secret in a comparison. -/
def Keys.tag (secret : String) : String := "sha256:" ++ keys.sha256 secret

/-- What does not decrypt stays as it is. -/
def Keys.normalize (credential : Option String) : Option String :=
  credential.map fun ciphertext => match keys.decrypt ciphertext with
    | some secret => keys.tag secret
    | none => ciphertext

def normalizeStep (step : SmartUrlStep) : SmartUrlStep :=
  { step with value_encrypted := keys.normalize step.value_encrypted }

def normalizeSmart (smart : SmartUrlConfig) : SmartUrlConfig :=
  { smart with steps := smart.steps.map (normalizeStep keys) }

def normalizeCell (cell : BundleCell) : BundleCell :=
  { cell with smart_url := cell.smart_url.map (normalizeSmart keys) }

def normalizeLayout (layout : BundleLayout) : BundleLayout :=
  { layout with cells := layout.cells.map (normalizeCell keys) }

def normalizeCamera (camera : BundleCamera) : BundleCamera :=
  { camera with
    playback_password_encrypted := keys.normalize camera.playback_password_encrypted
    onvif_password_encrypted := keys.normalize camera.onvif_password_encrypted }

def normalizeDisplay (bd : BundleDisplayWithLayouts) : BundleDisplayWithLayouts :=
  { bd with layouts := bd.layouts.map (normalizeLayout keys) }

/-- The bundle with every secret replaced by its tag, so that another encryption of it compares
equal. -/
def render_comparison_bundle (bundle : KioskBundle) : KioskBundle :=
  { bundle with
    cameras := bundle.cameras.map (normalizeCamera keys)
    displays := bundle.displays.map (normalizeDisplay keys)
    layouts := bundle.layouts.map (normalizeLayout keys) }

/-! ### What is compared -/

/-- What a pipeline is built from. -/
structure PipelineInputs where
  enabled : Bool
  url : Option String
  streams : List (String × String)
  username : Option String
  password : Option String
deriving DecidableEq

def camera_pipeline_inputs (camera : BundleCamera) : PipelineInputs where
  enabled := camera.enabled
  url := camera.rtsp_url
  streams := camera.streams.map fun stream => (stream.role, stream.rtsp_uri)
  username := camera.playback_username
  password := camera.playback_password_encrypted

/-- What a tile of a camera is drawn from. -/
structure RenderInputs where
  name : String
  pipeline : PipelineInputs
deriving DecidableEq

def camera_render_inputs (camera : BundleCamera) : RenderInputs :=
  ⟨camera.name, camera_pipeline_inputs camera⟩

/-- What a display takes from a camera, for a tile that it shows or for a pipeline alone. -/
inductive CameraInputs where
  | render (inputs : RenderInputs)
  | pipeline (inputs : PipelineInputs)
deriving DecidableEq

/-- What a display is built from; a display is built anew when they differ. -/
structure DisplayInputs where
  width : Nat
  height : Nat
  layout : BundleLayout
  cameras : List (String × CameraInputs)
  operator_console : OperatorConsoleConfig
  tenant : String

/-- Of entries with one key the last is in the map. -/
def entry (cameras : List (String × CameraInputs)) (id : String) : Option CameraInputs :=
  (cameras.reverse.find? (·.1 = id)).map Prod.snd

/-- Both sides have equal fields, and equal entries for every camera. -/
def DisplayInputs.same (a b : DisplayInputs) : Bool :=
  a.width = b.width && a.height = b.height && a.layout = b.layout &&
    a.operator_console = b.operator_console &&
    a.tenant = b.tenant && (a.cameras ++ b.cameras).all fun e => entry a.cameras e.1 = entry b.cameras e.1

/-- The layout shows the camera. -/
def visible (layout : BundleLayout) (camera : BundleCamera) : Bool :=
  layout.cells.any fun cell => cell.camera_id = some camera.id

/-- The inputs of every camera that is shown or warmed ahead. -/
def cameraInputs (layout : BundleLayout) (cameras : List BundleCamera) : List (String × CameraInputs) :=
  (cameras.filter fun camera => camera.id ∈ layout.preload_camera_ids || visible layout camera).map
      fun camera =>
    (camera.id, if visible layout camera then .render (camera_render_inputs camera)
      else .pipeline (camera_pipeline_inputs camera))

def inputs (bundle : KioskBundle) (display_id : String) (active_id : Option String) : Option DisplayInputs :=
  (bundle.display? display_id).bind fun display => active_id.bind fun active_id =>
      (display.layout? active_id).map fun layout =>
    { width := display.width_px
      height := display.height_px
      layout
      cameras := cameraInputs layout bundle.cameras
      operator_console := bundle.operator_console
      tenant := bundle.tenant_slug }

/-- The display is built from the same inputs. -/
def display_render_unchanged (previous next : KioskBundle) (display_id : String)
    (active_id : Option String) : Bool :=
  match inputs previous display_id active_id, inputs next display_id active_id with
  | some old, some new => old.same new
  | _, _ => false

/-- The cameras whose pipelines need not be built anew. -/
def unchanged_camera_ids (previous : Option KioskBundle) (next : KioskBundle) : List String :=
  match previous with
  | none => []
  | some previous => (next.cameras.filter fun camera => (previous.camera? camera.id).any fun prior =>
      camera_pipeline_inputs prior = camera_pipeline_inputs camera).map (·.id)

/-- What a camera in focus is drawn from. -/
def overrideInputs (bundle : KioskBundle) (focus : FocusOverride) : Option RenderInputs :=
  (bundle.cameras.find? (·.id = focus.camera_id)).map camera_render_inputs

/-- The display may stay as it is, with the cameras in focus on it. -/
def can_preserve_display (state : DisplayState) (previous next : KioskBundle) (id : String) : Bool :=
  ((state.focus_overrides.map Prod.snd ++ state.fullscreen_override.toList).all fun focus =>
    overrideInputs previous focus = overrideInputs next focus) &&
  display_render_unchanged previous next id state.current_layout_id

/-! ### What is shown -/

/-- The layout as `render_layout_inner` draws it. -/
def shown (bundle : KioskBundle) (state : DisplayState) (id : String) : Option BundleLayout :=
  (bundle.display? id).bind fun bd => state.current_layout_id.bind fun layout_id =>
    (bd.chosenLayout layout_id).map (apply_operator_overrides state)

def Keys.secret (credential : Option String) : Option String := credential.bind keys.decrypt

/-- The two cameras give a cell the same stream, with the same credentials. -/
structure SameStream (c c' : BundleCamera) : Prop where
  stream : ∀ selector area_fraction, c.pick_stream selector area_fraction = c'.pick_stream selector
    area_fraction
  fallback : c.main_fallback_uri = c'.main_fallback_uri
  username : c.playback_username = c'.playback_username
  password : keys.secret c.playback_password_encrypted = keys.secret c'.playback_password_encrypted

/-- The two cameras give a cell the same tile. -/
structure SameTile (c c' : BundleCamera) : Prop where
  name : c.name = c'.name
  stream : SameStream keys c c'

/-- The secret of a step. -/
def step : Traversal SmartUrlStep (Option String) :=
  Traversal.self.field (·.value_encrypted) (fun value step => { step with value_encrypted := value })
    (fun _ _ => rfl)
    fun _ _ _ => rfl

/-- The secrets of a login. -/
def smart : Traversal SmartUrlConfig (Option String) :=
  step.list.field (·.steps) (fun steps smart => { smart with steps }) (fun _ _ => rfl) fun _ _ _ => rfl

/-- The secrets of a cell. -/
def cell : Traversal BundleCell (Option String) :=
  smart.option.field (·.smart_url) (fun smart_url cell => { cell with smart_url }) (fun _ _ => rfl)
    fun _ _ _ => rfl

/-- The credentials of a layout. -/
def credentials : Traversal BundleLayout (Option String) :=
  cell.list.field (·.cells) (fun cells layout => { layout with cells }) (fun _ _ => rfl) fun _ _ _ => rfl

/-- The display shows the same with both bundles: its layout is the same once its credentials are
decrypted, and so are the cameras of its tiles. -/
def Same (previous next : KioskBundle) (state : DisplayState) (id : String) : Prop :=
  ∃ l l', shown previous state id = some l ∧ shown next state id = some l' ∧
    credentials.mapParts keys.secret l = credentials.mapParts keys.secret l' ∧
    ∀ cell ∈ l.cells, cell.content_type = "camera" → ∀ camera_id ∈ cell.camera_id,
      Option.Rel (SameTile keys) (previous.camera? camera_id) (next.camera? camera_id)

/-- One credential does not decrypt, and reads as the digest of the other's secret does in the
comparison copy. -/
def Clash (c c' : Option String) : Prop :=
  ∃ secret, (keys.secret c = some secret ∧ keys.secret c' = none ∧ c' = some (keys.tag secret)) ∨
    (keys.secret c' = some secret ∧ keys.secret c = none ∧ c = some (keys.tag secret))

/-- No credentials that stand in one place clash. -/
def Sound (previous next : KioskBundle) (state : DisplayState) (id : String) : Prop :=
  ∀ l ∈ shown previous state id, ∀ l' ∈ shown next state id,
    (∀ p ∈ (credentials.parts l).zip (credentials.parts l'), ¬ Clash keys p.1 p.2) ∧
    ∀ cell ∈ l.cells, cell.content_type = "camera" → ∀ camera_id ∈ cell.camera_id,
      ∀ c ∈ previous.camera? camera_id, ∀ c' ∈ next.camera? camera_id,
        ¬ Clash keys c.playback_password_encrypted c'.playback_password_encrypted

/-! ### Credentials -/

variable {keys} {previous next : KioskBundle} {state : DisplayState} {id : String}

theorem secret_eq_iff (hsha : Function.Injective keys.sha256) {c c' : Option String}
    (h : keys.normalize c = keys.normalize c') :
    keys.secret c = keys.secret c' ↔ ¬ Clash keys c c' := by
  cases c with
  | none =>
    obtain rfl : c' = none := Option.map_eq_none_iff.1 h.symm
    refine iff_of_true rfl ?_
    rintro ⟨secret, ⟨hsecret, -⟩ | ⟨hsecret, -⟩⟩ <;> cases hsecret
  | some x =>
    cases c' with
    | none => cases h
    | some x' =>
      have heq := Option.some.inj h
      show keys.decrypt x = keys.decrypt x' ↔ _
      cases hx : keys.decrypt x with
      | none =>
        cases hx' : keys.decrypt x' with
        | none =>
          refine iff_of_true rfl ?_
          rintro ⟨secret, ⟨hsecret, -⟩ | ⟨hsecret, -⟩⟩
          · exact nomatch hx.symm.trans hsecret
          · exact nomatch hx'.symm.trans hsecret
        | some secret =>
          simp only [hx, hx'] at heq
          exact iff_of_false nofun fun hclash => hclash ⟨secret, .inr ⟨hx', hx, congrArg some heq⟩⟩
      | some secret =>
        cases hx' : keys.decrypt x' with
        | none =>
          simp only [hx, hx'] at heq
          exact iff_of_false nofun fun hclash => hclash ⟨secret, .inl ⟨hx, hx', congrArg some heq.symm⟩⟩
        | some secret' =>
          simp only [hx, hx'] at heq
          have hsame : secret = secret' := hsha (String.append_right_inj _ |>.1 heq)
          refine iff_of_true (congrArg some hsame) ?_
          rintro ⟨other, ⟨-, hnone, -⟩ | ⟨-, hnone, -⟩⟩
          · exact nomatch hx'.symm.trans hnone
          · exact nomatch hx.symm.trans hnone

/-- The choice of a stream depends on the streams and the URL only. -/
theorem pick_stream_congr {c c' : BundleCamera} (hstreams : c.streams = c'.streams)
    (hurl : c.rtsp_url = c'.rtsp_url)
    (selector : Option String) (area_fraction : ℚ) :
    c.pick_stream selector area_fraction = c'.pick_stream selector area_fraction := by
  cases c
  cases c'
  cases hstreams
  cases hurl
  rfl

theorem main_fallback_uri_congr {c c' : BundleCamera} (hstreams : c.streams = c'.streams) :
    c.main_fallback_uri = c'.main_fallback_uri := by
  cases c
  cases c'
  cases hstreams
  rfl

theorem sameStream_iff (hsha : Function.Injective keys.sha256) {c c' : BundleCamera}
    (h : camera_pipeline_inputs (normalizeCamera keys c) = camera_pipeline_inputs (normalizeCamera keys c')) :
    SameStream keys c c' ↔ ¬ Clash keys c.playback_password_encrypted c'.playback_password_encrypted := by
  obtain ⟨-, hurl, hstreams, husername, hpassword⟩ := PipelineInputs.mk.injEq .. ▸ h
  have hpairs : Function.Injective fun stream : BundleStream => (stream.role, stream.rtsp_uri) := by
    rintro ⟨role, uri⟩ ⟨role', uri'⟩ heq
    obtain ⟨rfl, rfl⟩ := Prod.mk.inj heq
    rfl
  have hsame : c.streams = c'.streams := hpairs.list_map hstreams
  rw [← secret_eq_iff hsha hpassword]
  exact ⟨fun hstream => hstream.password, fun hsecret =>
    ⟨pick_stream_congr hsame hurl, main_fallback_uri_congr hsame, husername, hsecret⟩⟩

theorem sameTile_iff (hsha : Function.Injective keys.sha256) {c c' : BundleCamera}
    (h : camera_render_inputs (normalizeCamera keys c) = camera_render_inputs (normalizeCamera keys c')) :
    SameTile keys c c' ↔ ¬ Clash keys c.playback_password_encrypted c'.playback_password_encrypted := by
  obtain ⟨hname, hpipeline⟩ := RenderInputs.mk.inj h
  rw [← sameStream_iff hsha hpipeline]
  exact ⟨fun htile => htile.stream, fun hstream => ⟨hname, hstream⟩⟩

theorem tiles_iff (hsha : Function.Injective keys.sha256) {c c' : Option BundleCamera}
    (h : c.map (camera_render_inputs ∘ normalizeCamera keys) = c'.map (camera_render_inputs ∘
      normalizeCamera keys)) :
    Option.Rel (SameTile keys) c c' ↔
      ∀ a ∈ c, ∀ b ∈ c', ¬ Clash keys a.playback_password_encrypted b.playback_password_encrypted := by
  cases c with
  | none =>
    obtain rfl : c' = none := Option.map_eq_none_iff.1 h.symm
    exact iff_of_true .none nofun
  | some c =>
    cases c' with
    | none => cases h
    | some c' =>
      have htile := sameTile_iff hsha (Option.some.inj h)
      constructor
      · rintro (hrel | _) a ha b hb
        obtain rfl := Option.some.inj ha
        obtain rfl := Option.some.inj hb
        exact htile.1 hrel
      · exact fun hclash => .some (htile.2 (hclash c rfl c' rfl))

/-! ### Copies -/

theorem camera?_copy : (render_comparison_bundle keys previous).camera? id = (previous.camera? id).map
    (normalizeCamera keys) := by
  show ((previous.cameras.map (normalizeCamera keys)).reverse.find? fun camera => camera.id = id) = _
  rw [← List.map_reverse, List.find?_map]
  rfl

theorem map_id_copy : (render_comparison_bundle keys previous).cameras.map (·.id) = previous.cameras.map
    (·.id) := by
  show (previous.cameras.map (normalizeCamera keys)).map (·.id) = _
  rw [List.map_map]
  rfl

theorem normalized_displays_copy :
    (render_comparison_bundle keys previous).normalized_displays = previous.normalized_displays.map
    (normalizeDisplay keys) := by
  unfold KioskBundle.normalized_displays
  by_cases hnil : previous.displays = []
  · have hcopy : (render_comparison_bundle keys previous).displays = [] :=
      congrArg (List.map (normalizeDisplay keys)) hnil
    simp only [hcopy, hnil, ne_eq, not_true_eq_false, if_false]
    rw [show (render_comparison_bundle keys previous).display = previous.display from rfl]
    cases previous.display <;> rfl
  · have hcopy : (render_comparison_bundle keys previous).displays ≠ [] :=
      fun h => hnil (List.map_eq_nil_iff.1 h)
    rw [if_pos hcopy, if_pos hnil]
    rfl

theorem display?_copy : (render_comparison_bundle keys previous).display? id = (previous.display? id).map
    (normalizeDisplay keys) := by
  unfold KioskBundle.display?
  rw [normalized_displays_copy, List.find?_map]
  rfl

theorem layout?_copy {bd : BundleDisplayWithLayouts} {layout_id : String} :
    (normalizeDisplay keys bd).layout? layout_id = (bd.layout? layout_id).map (normalizeLayout keys) := by
  show ((bd.layouts.map (normalizeLayout keys)).find? fun layout => layout.id = layout_id) = _
  rw [List.find?_map]
  rfl

theorem chosenLayout_eq {bd : BundleDisplayWithLayouts} {layout_id : String} {layout : BundleLayout}
    (h : bd.layout? layout_id = some layout) : bd.chosenLayout layout_id = some layout := by
  unfold BundleDisplayWithLayouts.chosenLayout
  rw [h]
  rfl

/-! ### Overrides -/

theorem over_fullscreen {f : Option String → Option String} {focus : FocusOverride} {c : BundleCell} :
    cell.mapParts f (c.fullscreen focus) = (cell.mapParts f c).fullscreen focus := rfl

theorem over_focused {f : Option String → Option String} {focus_overrides : List (String × FocusOverride)}
    {c : BundleCell} :
    cell.mapParts f (c.focused focus_overrides) = (cell.mapParts f c).focused focus_overrides := by
  unfold BundleCell.focused
  rw [show cell_id (cell.mapParts f c) = cell_id c from rfl]
  split <;> rfl

/-- Overrides leave the credentials of a layout's cells where they are. -/
theorem over_apply_operator_overrides {f : Option String → Option String} {l : BundleLayout} :
    credentials.mapParts f (apply_operator_overrides state l) = apply_operator_overrides state
    (credentials.mapParts f l) := by
  unfold apply_operator_overrides
  split
  · show BundleLayout.mk .. = BundleLayout.mk ..
    congr 1
    show (l.cells.map BundleCell.cleared).map (cell.mapParts f) = (l.cells.map (cell.mapParts f)).map
      BundleCell.cleared
    rw [List.map_map, List.map_map]
    rfl
  · split
    · next focus _ =>
      show BundleLayout.mk .. = BundleLayout.mk ..
      congr 1
      show [cell.mapParts f ((l.cells.head?.getD emptyCell).fullscreen focus)] =
        [((l.cells.map (cell.mapParts f)).head?.getD emptyCell).fullscreen focus]
      rw [over_fullscreen, List.head?_map]
      cases l.cells.head? <;> rfl
    · show BundleLayout.mk .. = BundleLayout.mk ..
      congr 1
      show (l.cells.map (BundleCell.focused state.focus_overrides)).map (cell.mapParts f) =
        (l.cells.map (cell.mapParts f)).map (BundleCell.focused state.focus_overrides)
      rw [List.map_map, List.map_map]
      exact List.map_congr_left fun c _ => over_focused

theorem mem_of_lookup {focus_overrides : List (String × FocusOverride)} {key : String} {focus : FocusOverride}
    (h : focus_overrides.lookup key = some focus) : (key, focus) ∈ focus_overrides := by
  obtain ⟨before, after, rfl, -⟩ := List.lookup_eq_some_iff.1 h
  simp

/-- The camera of a tile is one of the layout's or an operator's. -/
theorem camera_of_apply {l : BundleLayout} {c : BundleCell}
    (hc : c ∈ (apply_operator_overrides state l).cells)
    (hcontent : c.content_type = "camera") {camera_id : String} (hcamera : c.camera_id = some camera_id) :
    (∃ base ∈ l.cells, base.camera_id = some camera_id) ∨
      ∃ focus ∈ state.focus_overrides.map Prod.snd ++ state.fullscreen_override.toList,
      focus.camera_id = camera_id := by
  unfold apply_operator_overrides at hc
  split at hc
  · obtain ⟨base, -, rfl⟩ := List.mem_map.1 hc
    exact absurd hcontent (by simp [BundleCell.cleared])
  · split at hc
    · next focus hfocus =>
      obtain rfl := List.mem_singleton.1 hc
      refine .inr ⟨focus, List.mem_append_right _ ?_, Option.some.inj hcamera⟩
      rw [hfocus]
      exact List.mem_singleton_self focus
    · obtain ⟨base, hbase, rfl⟩ := List.mem_map.1 hc
      unfold BundleCell.focused at hcamera
      split at hcamera
      · next focus hfocus =>
        have hmem := List.mem_map_of_mem (f := Prod.snd) (mem_of_lookup hfocus)
        exact .inr ⟨focus, List.mem_append_left _ hmem, Option.some.inj hcamera⟩
      · exact .inl ⟨base, hbase, hcamera⟩

/-! ### Displays that are kept -/

theorem entry_cameraInputs {l : BundleLayout} {cameras : List BundleCamera} {camera_id : String}
    (hvisible : ∃ base ∈ l.cells, base.camera_id = some camera_id) :
    entry (cameraInputs l cameras) camera_id =
      (cameras.reverse.find? (·.id = camera_id)).map fun camera => .render (camera_render_inputs camera) := by
  have hsee : ∀ camera : BundleCamera, camera.id = camera_id → visible l camera = true := by
    rintro camera rfl
    obtain ⟨base, hbase, hcamera⟩ := hvisible
    exact List.any_eq_true.2 ⟨base, hbase, decide_eq_true hcamera⟩
  unfold entry cameraInputs
  rw [← List.map_reverse, ← List.filter_reverse, List.find?_map, List.find?_filter]
  have hpred : (fun camera : BundleCamera =>
    decide ((decide (camera.id ∈ l.preload_camera_ids) || visible l camera) = true ∧
      decide (camera.id = camera_id) = true)) = fun camera => decide (camera.id = camera_id) := by
    funext camera
    by_cases hid : camera.id = camera_id
    · simp [hsee camera hid, hid]
    · simp [hid]
  simp only [Function.comp_def, hpred]
  cases hcamera : cameras.reverse.find? (·.id = camera_id) with
  | none => rfl
  | some camera =>
    have hid : camera.id = camera_id := by simpa using List.find?_some hcamera
    simp [hsee camera hid]

theorem entry_eq_of_same {a b : DisplayInputs} (h : a.same b = true) (camera_id : String) :
    entry a.cameras camera_id = entry b.cameras camera_id := by
  simp only [DisplayInputs.same, Bool.and_eq_true, List.all_eq_true, decide_eq_true_eq] at h
  have hkey : ∀ cameras : List (String × CameraInputs), (∀ e ∈ cameras, e.1 ≠ camera_id) →
      entry cameras camera_id = none := by
    intro cameras hne
    simp only [entry, Option.map_eq_none_iff, List.find?_eq_none, List.mem_reverse, decide_eq_true_eq]
    exact hne
  by_cases hmem : ∃ e ∈ a.cameras ++ b.cameras, e.1 = camera_id
  · obtain ⟨e, he, rfl⟩ := hmem
    exact h.2 e he
  · have hne : ∀ e ∈ a.cameras ++ b.cameras, e.1 ≠ camera_id := fun e he heq => hmem ⟨e, he, heq⟩
    rw [hkey a.cameras fun e he => hne e (List.mem_append_left _ he),
      hkey b.cameras fun e he => hne e (List.mem_append_right _ he)]

theorem inputs_copy {display_id : String} {active_id : Option String} {found : DisplayInputs}
    (h : inputs (render_comparison_bundle keys previous) display_id active_id = some found) :
    ∃ bd layout_id layout, previous.display? display_id = some bd ∧ active_id = some layout_id ∧
      bd.layout? layout_id = some layout ∧ found.layout = normalizeLayout keys layout ∧
      found.cameras = cameraInputs (normalizeLayout keys layout)
      (previous.cameras.map (normalizeCamera keys)) := by
  obtain ⟨copy, hcopy, h⟩ := Option.bind_eq_some_iff.1 h
  obtain ⟨layout_id, rfl, h⟩ := Option.bind_eq_some_iff.1 h
  obtain ⟨layout, hlayout, rfl⟩ := Option.map_eq_some_iff.1 h
  rw [display?_copy] at hcopy
  obtain ⟨bd, hbd, rfl⟩ := Option.map_eq_some_iff.1 hcopy
  rw [layout?_copy] at hlayout
  obtain ⟨base, hbase, rfl⟩ := Option.map_eq_some_iff.1 hlayout
  exact ⟨bd, layout_id, base, hbd, rfl, hbase, rfl, rfl⟩

/-- What a display that may be kept has in both bundles. -/
theorem exists_of_can_preserve (hprevious : (previous.cameras.map (·.id)).Nodup)
    (hnext : (next.cameras.map (·.id)).Nodup)
    (h : can_preserve_display state (render_comparison_bundle keys previous)
      (render_comparison_bundle keys next) id = true) :
    ∃ l l', shown previous state id = some (apply_operator_overrides state l) ∧
      shown next state id = some (apply_operator_overrides state l') ∧
      normalizeLayout keys l = normalizeLayout keys l' ∧
      ∀ c ∈ (apply_operator_overrides state l).cells, c.content_type = "camera" → ∀ camera_id ∈ c.camera_id,
        (previous.camera? camera_id).map (camera_render_inputs ∘ normalizeCamera keys) =
          (next.camera? camera_id).map (camera_render_inputs ∘ normalizeCamera keys) := by
  obtain ⟨hoverrides, hunchanged⟩ := Bool.and_eq_true_iff.1 h
  unfold display_render_unchanged at hunchanged
  split at hunchanged
  · next old new hold hnew =>
    obtain ⟨bd, layout_id, l, hbd, hactive, hl, holdLayout, holdCameras⟩ := inputs_copy hold
    obtain ⟨bd', layout_id', l', hbd', hactive', hl', hnewLayout, hnewCameras⟩ := inputs_copy hnew
    obtain rfl := Option.some.inj (hactive.symm.trans hactive')
    have hsame : normalizeLayout keys l = normalizeLayout keys l' := by
      simp only [DisplayInputs.same, Bool.and_eq_true, decide_eq_true_eq] at hunchanged
      rw [← holdLayout, ← hnewLayout]
      exact hunchanged.1.1.1.2
    have hshown : ∀ {bundle : KioskBundle} {bd : BundleDisplayWithLayouts} {l : BundleLayout},
      bundle.display? id = some bd →
        bd.layout? layout_id = some l → shown bundle state id = some (apply_operator_overrides state l) := by
      intro bundle bd l hbd hl
      unfold shown
      rw [hbd, hactive, Option.bind_some, Option.bind_some, chosenLayout_eq hl, Option.map_some]
    refine ⟨l, l', hshown hbd hl, hshown hbd' hl', hsame, fun c hc hcontent camera_id hcamera => ?_⟩
    rcases camera_of_apply hc hcontent hcamera with ⟨base, hbase, hid⟩ | ⟨focus, hfocus, rfl⟩
    · have hvisible : ∃ base ∈ (normalizeLayout keys l).cells, base.camera_id = some camera_id :=
        ⟨normalizeCell keys base, List.mem_map_of_mem hbase, hid⟩
      have hentry := entry_eq_of_same hunchanged camera_id
      rw [holdCameras, hnewCameras, entry_cameraInputs hvisible,
        entry_cameraInputs (hsame ▸ hvisible)] at hentry
      have hcopies : ((render_comparison_bundle keys previous).camera? camera_id).map
        (CameraInputs.render ∘ camera_render_inputs) =
          ((render_comparison_bundle keys next).camera? camera_id).map (CameraInputs.render ∘
            camera_render_inputs) := hentry
      rw [camera?_copy, camera?_copy, Option.map_map, Option.map_map] at hcopies
      have hrender : Function.Injective CameraInputs.render := fun _ _ heq => CameraInputs.render.inj heq
      exact Option.map_injective hrender (by rw [Option.map_map, Option.map_map]; exact hcopies)
    · have hinputs := of_decide_eq_true (List.all_eq_true.1 hoverrides focus hfocus)
      unfold overrideInputs at hinputs
      have hcopy : ((render_comparison_bundle keys previous).cameras.map (·.id)).Nodup := by rwa [map_id_copy]
      have hcopy' : ((render_comparison_bundle keys next).cameras.map (·.id)).Nodup := by rwa [map_id_copy]
      rw [← KioskBundle.camera?_eq_find? _ hcopy, ← KioskBundle.camera?_eq_find? _ hcopy',
        camera?_copy, camera?_copy, Option.map_map, Option.map_map] at hinputs
      exact hinputs
  · cases hunchanged

/-- A display that may be kept shows what the new bundle gives, unless credentials of it clash. -/
theorem same_iff_sound (hsha : Function.Injective keys.sha256)
    (hprevious : (previous.cameras.map (·.id)).Nodup)
    (hnext : (next.cameras.map (·.id)).Nodup)
    (h : can_preserve_display state (render_comparison_bundle keys previous)
      (render_comparison_bundle keys next) id = true) :
    Same keys previous next state id ↔ Sound keys previous next state id := by
  obtain ⟨l, l', hshown, hshown', hlayouts, hcameras⟩ := exists_of_can_preserve hprevious hnext h
  have hover : credentials.mapParts keys.normalize (apply_operator_overrides state l) =
      credentials.mapParts keys.normalize (apply_operator_overrides state l') := by
    rw [over_apply_operator_overrides, over_apply_operator_overrides]
    exact congrArg (apply_operator_overrides state) hlayouts
  have hparts : credentials.mapParts keys.secret (apply_operator_overrides state l) =
      credentials.mapParts keys.secret (apply_operator_overrides state l') ↔
      ∀ p ∈ (credentials.parts (apply_operator_overrides state l)).zip (credentials.parts
        (apply_operator_overrides state l')), ¬ Clash keys p.1 p.2 := by
    rw [credentials.mapParts_eq_iff_of_mapParts_eq hover]
    exact forall₂_congr fun p hp => secret_eq_iff hsha (credentials.eq_of_mem_zip hover p hp)
  constructor
  · rintro ⟨m, m', hm, hm', hsecrets, htiles⟩ n hn n' hn'
    obtain rfl := Option.some.inj (hshown.symm.trans hm)
    obtain rfl := Option.some.inj (hshown'.symm.trans hm')
    obtain rfl := Option.some.inj (hshown.symm.trans hn)
    obtain rfl := Option.some.inj (hshown'.symm.trans hn')
    refine ⟨hparts.1 hsecrets, fun c hc hcontent camera_id hcamera => ?_⟩
    exact (tiles_iff hsha (hcameras c hc hcontent camera_id hcamera)).1
      (htiles c hc hcontent camera_id hcamera)
  · intro hsound
    obtain ⟨hclash, htiles⟩ := hsound _ hshown _ hshown'
    refine ⟨_, _, hshown, hshown', hparts.2 hclash, fun c hc hcontent camera_id hcamera => ?_⟩
    exact (tiles_iff hsha (hcameras c hc hcontent camera_id hcamera)).2
      (htiles c hc hcontent camera_id hcamera)

/-- A camera whose pipelines are reused is in both bundles, with the same streams unless its
passwords clash. -/
theorem unchanged_iff (hsha : Function.Injective keys.sha256) (hnext : (next.cameras.map (·.id)).Nodup)
    {camera_id : String}
    (h : camera_id ∈ unchanged_camera_ids (some (render_comparison_bundle keys previous))
      (render_comparison_bundle keys next)) :
    ∃ c c', previous.camera? camera_id = some c ∧ next.camera? camera_id = some c' ∧
      (SameStream keys c c' ↔ ¬ Clash keys c.playback_password_encrypted c'.playback_password_encrypted) := by
  obtain ⟨copy', hcopy', rfl⟩ := List.mem_map.1 h
  obtain ⟨hmem, hany⟩ := List.mem_filter.1 hcopy'
  obtain ⟨copy, hcopy, hinputs⟩ := (Option.any_eq_true ..).1 hany
  obtain ⟨c', hc', rfl⟩ := List.mem_map.1 hmem
  rw [camera?_copy] at hcopy
  obtain ⟨c, hc, rfl⟩ := Option.map_eq_some_iff.1 hcopy
  refine ⟨c, c', hc, ?_, sameStream_iff hsha (of_decide_eq_true hinputs)⟩
  rw [KioskBundle.camera?_eq_find? _ hnext]
  obtain ⟨found, hfound⟩ : ∃ found, next.cameras.find? (·.id = c'.id) = some found :=
    Option.isSome_iff_exists.1 (List.find?_isSome.2 ⟨c', hc', by simp⟩)
  have hid : found.id = c'.id := by simpa using List.find?_some hfound
  have heq : found = c' := List.inj_on_of_nodup_map hnext (List.mem_of_find?_eq_some hfound) hc' hid
  show next.cameras.find? (·.id = c'.id) = some c'
  rw [hfound, heq]

/-- A display that is kept shows what the new bundle gives, and pipelines that are reused have its streams and
passwords, unless a credential that does not decrypt reads as the digest of the other bundle's secret. -/
theorem refresh_faithful (keys : Keys) (hsha : Function.Injective keys.sha256) (previous next : KioskBundle)
    (hprevious : (previous.cameras.map (·.id)).Nodup) (hnext : (next.cameras.map (·.id)).Nodup)
    (state : DisplayState) (id : String) :
    (can_preserve_display state (render_comparison_bundle keys previous)
      (render_comparison_bundle keys next) id = true →
      (Same keys previous next state id ↔ Sound keys previous next state id)) ∧
    ∀ camera_id ∈ unchanged_camera_ids (some (render_comparison_bundle keys previous))
    (render_comparison_bundle keys next),
      ∃ c c', previous.camera? camera_id = some c ∧ next.camera? camera_id = some c' ∧
        (SameStream keys c c' ↔ ¬ Clash keys c.playback_password_encrypted c'.playback_password_encrypted) :=
  ⟨same_iff_sound hsha hprevious hnext, fun _ => unchanged_iff hsha hnext⟩

/-! ### A camera whose password is encrypted anew -/

/-- The SHA-256 of `"a"`. -/
def digest : String := "ca978112ca1bbdcafac231b39a23dc4da786eff8147c4e72b9807785afee48bb"

/-- Two ciphertexts of one secret. -/
def transport : Keys where
  decrypt_cluster_public ciphertext key := if key = "k" ∧
    (ciphertext = "v1.i.t.c" ∨ ciphertext = "v1.j.u.d") then some "a" else none
  sha256 := Equiv.swap "a" digest
  decrypt_key := some "k"

def gate (password : String) : BundleCamera where
  id := "c1"
  name := "Gate"
  enabled := true
  simple_vms_managed := false
  recording_config := .null
  rtsp_url := some "rtsp://gate"
  streams := []
  playback_username := some "viewer"
  playback_password_encrypted := some password
  onvif_password_encrypted := none

def tile : BundleCell := { emptyCell with content_type := "camera", camera_id := some "c1" }

def wall (password : String) : KioskBundle where
  tenant_slug := "default"
  display := none
  layouts := []
  displays := [⟨⟨"d", "Wall", 1920, 1080, 0, 0, none⟩,
    [⟨none, "l", "One", 1, 1, "normal", none, none, [], true, true, none, [tile]⟩]⟩]
  cameras := [gate password]
  operator_console := ⟨false, none, 18443, [], ⟨false, none, .null⟩⟩

def showing : DisplayState := ⟨some "l", false, [], none, false, 0⟩

theorem refresh_faithful_rotated : Same transport (wall "v1.i.t.c") (wall "v1.j.u.d") showing "d" := by
  have hfaithful := @refresh_faithful transport (Equiv.injective _) (wall "v1.i.t.c")
    (wall "v1.j.u.d") (by decide) (by decide)
    showing "d"
  refine (hfaithful.1 (by decide)).2 fun l hl l' hl' => ?_
  obtain rfl := Option.some.inj hl
  obtain rfl := Option.some.inj hl'
  refine ⟨(fun p hp => nomatch hp), fun shownCell hcell hcontent camera_id hcamera c hc c' hc' => ?_⟩
  obtain rfl : shownCell = tile := List.mem_singleton.1 hcell
  obtain rfl := Option.some.inj hcamera
  obtain rfl := Option.some.inj hc
  obtain rfl := Option.some.inj hc'
  rintro ⟨secret, ⟨-, hnone, -⟩ | ⟨-, hnone, -⟩⟩
  · exact absurd hnone (by decide)
  · exact absurd hnone (by decide)

/-- The next bundle has the digest where the previous one has a ciphertext, and the camera counts as
unchanged. -/
theorem digest_reused : ¬ ∀ (keys : Keys), Function.Injective keys.sha256 → ∀ previous next : KioskBundle,
    (previous.cameras.map (·.id)).Nodup → (next.cameras.map (·.id)).Nodup →
    ∀ (state : DisplayState) (id : String),
    (can_preserve_display state (render_comparison_bundle keys previous)
      (render_comparison_bundle keys next) id = true →
      Same keys previous next state id) ∧
    ∀ camera_id ∈ unchanged_camera_ids (some (render_comparison_bundle keys previous))
    (render_comparison_bundle keys next),
      ∃ c c', previous.camera? camera_id = some c ∧ next.camera? camera_id = some c' ∧
      SameStream keys c c' := by
  intro h
  obtain ⟨c, c', hc, hc', hsame⟩ :=
    (h transport (Equiv.injective _) (wall "v1.i.t.c") (wall ("sha256:" ++ digest)) (by decide)
    (by decide) showing "d").2 "c1" (by decide)
  obtain rfl := Option.some.inj hc
  obtain rfl := Option.some.inj hc'
  exact absurd hsame.password (by decide)

end DisplayRefresh
