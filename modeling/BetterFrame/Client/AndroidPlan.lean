import BetterFrame.Client.Android
import Mathlib.Data.List.Forall2

/-!
# What an Android render plan shows

`render_plan_safe`: a plan lies in its grid without overlaps, shows enabled cameras of the bundle
and no more of them than the limit, opens acceptable pages only, and switches to layouts of its
display only.
-/

namespace Android

open Text

variable {parse : Parser}

/-! ### Layouts -/

theorem mem_positions {cell : BundleCell} {r c : Nat} : (r, c) ∈ positions cell ↔
    (cell.row ≤ r ∧ r < cell.row + cell.row_span) ∧ cell.col ≤ c ∧ c < cell.col + cell.col_span := by
  simp [positions, List.mem_range'_1]

/-- A cell that has a size and lies in the layout's grid. -/
def Inside (layout : BundleLayout) (cell : BundleCell) : Prop :=
  0 < cell.row_span ∧ 0 < cell.col_span ∧ cell.row + cell.row_span ≤ layout.grid_rows ∧
    cell.col + cell.col_span ≤ layout.grid_cols

theorem checked_add_le {a b limit : Nat} (h : ¬ (checked_add a b).all (limit < ·) = true) :
    a + b ≤ limit := by
  rw [checked_add] at h
  split at h
  · simpa using h
  · simp at h

theorem occupy_some {occupied occupied' ps : List (Nat × Nat)} (h : occupy occupied ps = some occupied') :
    (∀ p ∈ ps, p ∉ occupied) ∧ ∀ p, p ∈ occupied' ↔ p ∈ occupied ∨ p ∈ ps := by
  induction ps generalizing occupied with
  | nil =>
    obtain rfl := Option.some.inj h
    simp
  | cons p ps ih =>
    rw [occupy] at h
    split at h
    · cases h
    · next hp =>
      obtain ⟨hfree, hmem⟩ := ih h
      constructor
      · intro q hq
        rcases List.mem_cons.1 hq with rfl | hq
        · exact hp
        · exact fun hmem => hfree q hq (List.mem_cons_of_mem _ hmem)
      · intro q
        rw [hmem]
        simp only [List.mem_cons]
        tauto

/-- What a validated list of cells is like, seen from the cells before it. -/
theorem validate_cells_ok {layout : BundleLayout} {ids : List String} {occupied : List (Nat × Nat)}
    {cells : List (BundleCell × Nat)} (h : validate_cells layout ids occupied cells = .ok ()) :
    (∀ c ∈ cells, Inside layout c.1) ∧ (∀ c ∈ cells, cell_id c.1 c.2 ∉ ids) ∧
    (cells.map fun c => cell_id c.1 c.2).Nodup ∧ (∀ c ∈ cells, ∀ p ∈ positions c.1, p ∉ occupied) ∧
      cells.Pairwise fun c d => ∀ p, p ∈ positions c.1 → p ∉ positions d.1 := by
  induction cells generalizing ids occupied with
  | nil => simp
  | cons c cells ih =>
    obtain ⟨cell, i⟩ := c
    rw [validate_cells] at h
    split at h
    · cases h
    next hid =>
    split at h
    · cases h
    next hbounds =>
    split at h
    · cases h
    next occupied' hoccupy =>
    obtain ⟨hfree, hmem⟩ := occupy_some hoccupy
    obtain ⟨hinside, hids, hnodup, hpositions, hpairwise⟩ := ih h
    simp only [not_or] at hbounds
    refine ⟨?_, ?_, ?_, ?_, ?_⟩
    · refine List.forall_mem_cons.2 ⟨⟨?_, ?_, checked_add_le hbounds.2.2.1, checked_add_le hbounds.2.2.2⟩,
        hinside⟩
      · exact Nat.pos_of_ne_zero hbounds.1
      · exact Nat.pos_of_ne_zero hbounds.2.1
    · refine List.forall_mem_cons.2 ⟨hid, fun d hd hmem => ?_⟩
      exact hids d hd (List.mem_cons_of_mem _ hmem)
    · rw [List.map_cons, List.nodup_cons]
      refine ⟨fun hmem => ?_, hnodup⟩
      obtain ⟨d, hd, he⟩ := List.mem_map.1 hmem
      exact hids d hd (he ▸ List.mem_cons_self ..)
    · refine List.forall_mem_cons.2 ⟨hfree, fun d hd p hp hocc => ?_⟩
      exact hpositions d hd p hp ((hmem p).2 (.inl hocc))
    · refine List.pairwise_cons.2 ⟨fun d hd p hp hp' => ?_, hpairwise⟩
      exact hpositions d hd p hp' ((hmem p).2 (.inr hp))

/-- A layout that is accepted: a grid of at most 16 by 16, and cells that lie in it apart from each other. -/
structure Valid (layout : BundleLayout) : Prop where
  rows : 1 ≤ layout.grid_rows ∧ layout.grid_rows ≤ 16
  cols : 1 ≤ layout.grid_cols ∧ layout.grid_cols ≤ 16
  cells_le : layout.cells.length ≤ MAX_CELLS
  inside : ∀ c ∈ layout.cells.zipIdx, Inside layout c.1
  ids : (layout.cells.zipIdx.map fun c => cell_id c.1 c.2).Nodup
  apart : layout.cells.zipIdx.Pairwise fun c d => ∀ p, p ∈ positions c.1 → p ∉ positions d.1

theorem valid_of_validate {layout : BundleLayout} (h : validate_layout layout = .ok ()) : Valid layout := by
  rw [validate_layout] at h
  split at h
  · cases h
  · next hbounds =>
    obtain ⟨hinside, -, hids, -, hapart⟩ := validate_cells_ok h
    simp only [not_or] at hbounds
    exact ⟨by omega, by omega, by omega, hinside, hids, hapart⟩

/-! ### Content -/

/-- A camera plays from one of its compatible streams, or from its own URL when it has no streams. -/
def Playable (parse : Parser) (camera : BundleCamera) (uri : String) : Prop :=
  valid_rtsp parse uri = true ∧
    ((∃ stream ∈ camera.streams, compatible_encoding stream = true ∧ stream.rtsp_uri = uri) ∨
      camera.streams = [] ∧ camera.rtsp_url = some uri)

theorem pick_stream_playable {camera : BundleCamera} {expanded : Bool} {selector : Option String}
    {uri : String}
    (h : pick_stream parse camera expanded selector = some uri) : Playable parse camera uri := by
  simp only [pick_stream] at h
  rcases Option.or_eq_some_iff.1 h with h | ⟨-, h⟩
  · obtain ⟨stream, hstream, rfl⟩ := Option.map_eq_some_iff.1 h
    have hmem : stream ∈ camera.streams.filter fun s => compatible_encoding s &&
        valid_rtsp parse s.rtsp_uri := by
      rcases Option.or_eq_some_iff.1 hstream with h | ⟨-, h⟩
      · exact List.mem_of_find?_eq_some h
      · exact List.mem_of_mem_head? h
    obtain ⟨hstream, hok⟩ := List.mem_filter.1 hmem
    rw [Bool.and_eq_true] at hok
    exact ⟨hok.2, .inl ⟨stream, hstream, hok.1, rfl⟩⟩
  · split at h
    · next hnone =>
      obtain ⟨hurl, hvalid⟩ := Option.filter_eq_some_iff.1 h
      exact ⟨hvalid, .inr ⟨hnone, hurl⟩⟩
    · cases h

theorem enabled_camera_some {bundle : KioskBundle} {id : String} {camera : BundleCamera}
    (h : enabled_camera bundle id = some camera) : camera ∈ bundle.cameras ∧ camera.enabled = true ∧
    camera.id = id := by
  have hmem := List.mem_filter.1 (List.mem_reverse.1 (List.mem_of_find?_eq_some h))
  have hid := List.find?_some h
  exact ⟨hmem.1, hmem.2, by simpa using hid⟩

/-- A camera source is of an enabled camera that the cell refers to. -/
def CameraSource.Of (parse : Parser) (bundle : KioskBundle) (cell : BundleCell) (source : CameraSource) :
    Prop :=
  ∃ camera ∈ bundle.cameras, camera.enabled = true ∧ cell.camera_id = some camera.id ∧ source.id = camera.id ∧
    Playable parse camera source.uri ∧ ∀ fallback, source.fallback_uri = some fallback →
      Playable parse camera fallback

/-- A web source is of a web or HTML cell without a scripted login, and opens the cell's acceptable
URL or its text. -/
def WebSource.Of (parse : Parser) (cell : BundleCell) (source : WebSource) : Prop :=
  cell.smart_url = false ∧
    ((cell.content_type = "web" ∧ source.html = none ∧
        ∃ url, cell.web_url = some url ∧ source.url = some url ∧ valid_web_reference parse url = true) ∨
      cell.content_type = "html" ∧ source.url = none ∧ source.html = cell.html_content)

/-- What a cell of the plan is apart from its content. -/
def blank (output : RenderCell) : String × Nat × Nat × Nat × Nat × CellAction :=
  (output.id, output.row, output.col, output.row_span, output.col_span, output.action)

/-- A cell of the plan and the cell of the layout that it shows. -/
structure Rendered (parse : Parser) (bundle : KioskBundle) (layouts : List BundleLayout)
    (expanded : Bool) (cell : BundleCell) (index : Nat) (output : RenderCell) : Prop where
  id : output.id = cell_id cell index
  row : output.row = if expanded then 0 else cell.row
  col : output.col = if expanded then 0 else cell.col
  row_span : output.row_span = if expanded then 1 else cell.row_span
  col_span : output.col_span = if expanded then 1 else cell.col_span
  action : output.action = action cell layouts
  camera : ∀ source, output.camera = some source → source.Of parse bundle cell
  web : ∀ source, output.web = some source → source.Of parse cell

variable {bundle : KioskBundle} {display : BundleDisplayWithLayouts} {layout : BundleLayout}
  {layouts : List BundleLayout}
  {expanded : Bool} {cell : BundleCell} {index : Nat}

theorem rendered_blank (parse : Parser) (bundle : KioskBundle) (layouts : List BundleLayout) (expanded : Bool)
    (cell : BundleCell) (index : Nat) :
    Rendered parse bundle layouts expanded cell index (blank_cell layouts expanded index cell) where
  id := rfl
  row := rfl
  col := rfl
  row_span := rfl
  col_span := rfl
  action := rfl
  camera := nofun
  web := nofun

/-- The content of a cell does not move it. -/
theorem Rendered.change {output output' : RenderCell}
    (h : Rendered parse bundle layouts expanded cell index output)
    (hsame : blank output' = blank output) (hcamera : ∀ source, output'.camera = some source →
      source.Of parse bundle cell)
    (hweb : ∀ source, output'.web = some source → source.Of parse cell) :
    Rendered parse bundle layouts expanded cell index output' := by
  obtain ⟨hid, hrow, hcol, hrow_span, hcol_span, haction⟩ : output'.id = output.id ∧
    output'.row = output.row ∧
      output'.col = output.col ∧ output'.row_span = output.row_span ∧ output'.col_span = output.col_span ∧
      output'.action = output.action := by
    simpa [blank] using hsame
  exact ⟨hid.trans h.id, hrow.trans h.row, hcol.trans h.col, hrow_span.trans h.row_span,
    hcol_span.trans h.col_span, haction.trans h.action, hcamera, hweb⟩

/-- A cell takes one from the camera budget when it shows a camera, and none otherwise. -/
def Charges (before : Nat) (output : RenderCell) (after : Nat) : Prop :=
  (output.camera = none ∧ after = before) ∨ output.camera.isSome ∧ before < MAX_CAMERAS ∧ after = before + 1

theorem render_camera_ok {output : RenderCell} (h : Rendered parse bundle layouts expanded cell index output)
    (hnone : output.camera = none) {camera_count : Nat} :
    Rendered parse bundle layouts expanded cell index
    (render_camera parse bundle cell expanded camera_count output).1 ∧
      Charges camera_count (render_camera parse bundle cell expanded camera_count output).1
        (render_camera parse bundle cell expanded camera_count output).2 := by
  rw [render_camera]
  split
  · next camera hcamera =>
    obtain ⟨id, hid, hcamera⟩ := Option.bind_eq_some_iff.1 hcamera
    obtain ⟨hmem, henabled, rfl⟩ := enabled_camera_some hcamera
    dsimp only
    split
    · exact ⟨h.change rfl h.camera h.web, .inl ⟨hnone, rfl⟩⟩
    · next hbudget =>
      split
      · next uri huri =>
        refine ⟨h.change rfl (fun source hsource => ?_) h.web, .inr ⟨rfl, Nat.not_le.1 hbudget, rfl⟩⟩
        obtain rfl := Option.some.inj hsource
        refine ⟨camera, hmem, henabled, hid, rfl, pick_stream_playable huri, fun fallback hfallback => ?_⟩
        exact pick_stream_playable (Option.filter_eq_some_iff.1 hfallback).1
      · exact ⟨h.change rfl h.camera h.web, .inl ⟨hnone, rfl⟩⟩
  · exact ⟨h.change rfl h.camera h.web, .inl ⟨hnone, rfl⟩⟩

theorem web_content_ok (h : web_content_error parse cell = none) : cell.smart_url = false ∧
    (cell.content_type = "web" → ∃ url, cell.web_url = some url ∧ valid_web_reference parse url = true) := by
  rw [web_content_error] at h
  split at h
  · cases h
  next hsmart =>
  split at h
  · cases h
  next hweb =>
  refine ⟨by simpa using hsmart, fun htype => ?_⟩
  cases hurl : cell.web_url with
  | none => simp [htype, hurl] at hweb
  | some url => exact ⟨url, rfl, by simpa [htype, hurl] using hweb⟩

theorem render_web_ok {output : RenderCell} (h : Rendered parse bundle layouts expanded cell index output)
    (hnone : output.camera = none) (htype : cell.content_type = "web" ∨ cell.content_type = "html") :
    Rendered parse bundle layouts expanded cell index (render_web parse bundle layout cell output) ∧
      (render_web parse bundle layout cell output).camera = none := by
  rw [render_web]
  dsimp only
  split
  · exact ⟨h.change rfl h.camera h.web, hnone⟩
  · next herror =>
    refine ⟨h.change rfl h.camera fun source hsource => ?_, hnone⟩
    obtain rfl := Option.some.inj hsource
    obtain ⟨hsmart, hurl⟩ := web_content_ok herror
    refine ⟨hsmart, ?_⟩
    rcases htype with htype | htype
    · obtain ⟨url, hurl, hvalid⟩ := hurl htype
      exact .inl ⟨htype, by simp [htype], url, hurl, by simp [htype, hurl], hvalid⟩
    · exact .inr ⟨htype, by simp [htype], by simp [htype]⟩

theorem render_content_ok {output : RenderCell} (h : Rendered parse bundle layouts expanded cell index output)
    (hnone : output.camera = none) {camera_count : Nat} :
    Rendered parse bundle layouts expanded cell index
        (render_content parse bundle layout cell expanded camera_count output).1 ∧
      Charges camera_count (render_content parse bundle layout cell expanded camera_count output).1
        (render_content parse bundle layout cell expanded camera_count output).2 := by
  rw [render_content]
  split
  · exact render_camera_ok h hnone
  split
  · next htype =>
    exact ⟨(render_web_ok h hnone htype).1, .inl ⟨(render_web_ok h hnone htype).2, rfl⟩⟩
  split
  · exact ⟨h.change rfl h.camera h.web, .inl ⟨hnone, rfl⟩⟩
  · exact ⟨h.change rfl h.camera h.web, .inl ⟨hnone, rfl⟩⟩

/-- The cells of the plan show the cells that were to be rendered, one by one, and no more cameras
than the budget has. -/
theorem render_cells_ok {cells : List (BundleCell × Nat)} {camera_count : Nat}
    (hcount : camera_count ≤ MAX_CAMERAS) :
    List.Forall₂ (fun c output => Rendered parse bundle display.layouts expanded c.1 c.2 output) cells
        (render_cells parse bundle display layout expanded camera_count cells) ∧
      (render_cells parse bundle display layout expanded camera_count cells).countP
      (·.camera.isSome) + camera_count ≤
        MAX_CAMERAS := by
  induction cells generalizing camera_count with
  | nil => exact ⟨.nil, by simpa [render_cells] using hcount⟩
  | cons c cells ih =>
    obtain ⟨cell, index⟩ := c
    have hblank := rendered_blank parse bundle display.layouts expanded cell index
    obtain ⟨hrendered, hcharges⟩ : Rendered parse bundle display.layouts expanded cell index
        (render_content parse bundle layout cell expanded camera_count
          (blank_cell display.layouts expanded index cell)).1 ∧
      Charges camera_count
        (render_content parse bundle layout cell expanded camera_count
          (blank_cell display.layouts expanded index cell)).1
        (render_content parse bundle layout cell expanded camera_count
              (blank_cell display.layouts expanded index cell)).2 :=
      render_content_ok hblank rfl
    rw [render_cells]
    generalize render_content parse bundle layout cell expanded camera_count
      (blank_cell display.layouts expanded index cell) = result at hrendered hcharges ⊢
    obtain ⟨output, after⟩ := result
    have hcamera : (unsupported_message output).camera = output.camera := by
      rw [unsupported_message]
      split <;> rfl
    have hfirst : Rendered parse bundle display.layouts expanded cell index (unsupported_message output) := by
      rw [unsupported_message]
      split
      · exact hrendered.change rfl hrendered.camera hrendered.web
      · exact hrendered
    have hafter : after ≤ MAX_CAMERAS := by
      rcases hcharges with ⟨-, h⟩ | ⟨-, hlt, h⟩
      · have heq : after = camera_count := h
        omega
      · have heq : after = camera_count + 1 := h
        omega
    obtain ⟨hrest, hbudget⟩ := ih hafter
    refine ⟨.cons hfirst hrest, ?_⟩
    rw [List.countP_cons, hcamera]
    rcases hcharges with ⟨hnone, h⟩ | ⟨hsome, -, h⟩
    · simp only at hnone h
      rw [hnone]
      simp only [Option.isSome_none, Bool.false_eq_true, if_false]
      omega
    · simp only at hsome h
      rw [if_pos hsome]
      omega

/-! ### Plans -/

/-- The position lies in the cell's rectangle. -/
def RenderCell.Covers (output : RenderCell) (r c : Nat) : Prop :=
  (output.row ≤ r ∧ r < output.row + output.row_span) ∧ output.col ≤ c ∧ c < output.col + output.col_span

/-- The cell of the plan shows this cell of the plan's layout, on the only display. -/
def Shows (bundle : KioskBundle) (plan : RenderPlan) (output : RenderCell) (cell : BundleCell) : Prop :=
  ∃ display, bundle.normalized_displays = [display] ∧ ∃ layout ∈ display.layouts, layout.id = plan.layout_id ∧
    ∃ i, layout.cells[i]? = some cell ∧ output.id = cell_id cell i

/-- What the viewer relies on in a plan: the grid and the cells have room, and every source is of a
kind that it shows. -/
structure Safe (parse : Parser) (bundle : KioskBundle) (plan : RenderPlan) : Prop where
  rows : 1 ≤ plan.rows ∧ plan.rows ≤ 16
  cols : 1 ≤ plan.cols ∧ plan.cols ≤ 16
  cells_le : plan.cells.length ≤ MAX_CELLS
  ids : (plan.cells.map (·.id)).Nodup
  inside : ∀ output ∈ plan.cells, 0 < output.row_span ∧ 0 < output.col_span ∧
    output.row + output.row_span ≤ plan.rows ∧ output.col + output.col_span ≤ plan.cols
  apart : plan.cells.Pairwise fun a b => ∀ r c, ¬ (a.Covers r c ∧ b.Covers r c)
  cameras_le : plan.cells.countP (·.camera.isSome) ≤ MAX_CAMERAS
  cameras : ∀ output ∈ plan.cells, ∀ source, output.camera = some source →
    ∃ cell, Shows bundle plan output cell ∧ source.Of parse bundle cell
  webs : ∀ output ∈ plan.cells, ∀ source, output.web = some source →
    ∃ cell, Shows bundle plan output cell ∧ source.Of parse cell
  switches : ∀ output ∈ plan.cells, ∀ id, output.action = .SwitchLayout id →
    ∃ display, bundle.normalized_displays = [display] ∧ ∃ layout ∈ display.layouts, layout.id = id
  expanded : ∀ id, plan.expanded_cell_id = some id → plan.rows = 1 ∧ plan.cols = 1 ∧
    ∃ output, plan.cells = [output] ∧
    output.id = id ∧ output.row = 0 ∧ output.col = 0 ∧ output.row_span = 1 ∧ output.col_span = 1

theorem action_switch {layouts : List BundleLayout} {id : String}
    (h : action cell layouts = .SwitchLayout id) :
    ∃ layout ∈ layouts, layout.id = id := by
  rw [action] at h
  split at h
  · cases h
  split at h
  · cases h
  split at h
  · cases h
  split at h
  · dsimp only at h
    split at h
    · next layout_id hfilter =>
      obtain rfl := CellAction.SwitchLayout.inj h
      simpa using (Option.filter_eq_some_iff.1 hfilter).2
    · cases h
  · cases h

theorem exists_of_forall₂ {α β : Type} {R : α → β → Prop} {l : List α} {m : List β} (h : List.Forall₂ R l m) :
    ∀ b ∈ m, ∃ a ∈ l, R a b := by
  induction h with
  | nil => simp
  | @cons a b l m hab h ih =>
    intro b' hb'
    rcases List.mem_cons.1 hb' with rfl | hb'
    · exact ⟨a, List.mem_cons_self .., hab⟩
    · obtain ⟨a', ha', hab'⟩ := ih b' hb'
      exact ⟨a', List.mem_cons_of_mem _ ha', hab'⟩

/-- What holds between any two cells holds between what shows them. -/
theorem pairwise_of_forall₂ {α β : Type} {R : α → β → Prop} {S : α → α → Prop} {T : β → β → Prop}
    {l : List α} {m : List β}
    (h : List.Forall₂ R l m) (hl : l.Pairwise S) (hST : ∀ a a' b b', R a b → R a' b' → S a a' → T b b') :
    m.Pairwise T := by
  induction h with
  | nil => exact .nil
  | @cons a b l m hab h ih =>
    obtain ⟨ha, hl⟩ := List.pairwise_cons.1 hl
    refine List.pairwise_cons.2 ⟨fun b' hb' => ?_, ih hl⟩
    obtain ⟨a', ha', hab'⟩ := exists_of_forall₂ h b' hb'
    exact hST a a' b b' hab hab' (ha a' ha')

theorem filter_key {α β : Type} [DecidableEq β] {f : α → β} {l : List α} (h : (l.map f).Nodup)
    {c : α} (hc : c ∈ l) :
    l.filter (fun d => f c = f d) = [c] := by
  induction l with
  | nil => cases hc
  | cons a l ih =>
    rw [List.map_cons, List.nodup_cons] at h
    rcases List.mem_cons.1 hc with rfl | hc
    · have hnone : l.filter (fun d => f c = f d) = [] := by
        refine List.filter_eq_nil_iff.2 fun d hd he => h.1 ?_
        exact List.mem_map.2 ⟨d, hd, (of_decide_eq_true he).symm⟩
      rw [List.filter_cons_of_pos (by simp), hnone]
    · have hne : f c ≠ f a := fun he => h.1 (he ▸ List.mem_map_of_mem hc)
      rw [List.filter_cons_of_neg (by simpa using hne), ih h.2 hc]

/-- The cell that is expanded is one of the layout's. -/
theorem expanded_cell_some {expanded_cell_id : Option String} {id : String}
    (h : expanded_cell bundle layout expanded_cell_id = some id) :
    ∃ c ∈ layout.cells.zipIdx, cell_id c.1 c.2 = id := by
  rw [expanded_cell] at h
  obtain ⟨wanted, -, h⟩ := Option.bind_eq_some_iff.1 h
  obtain ⟨c, hc, rfl⟩ := Option.map_eq_some_iff.1 h
  exact ⟨c, List.mem_of_find?_eq_some (Option.filter_eq_some_iff.1 hc).1, rfl⟩

theorem visible_none (layout : BundleLayout) : visible_cells layout none = layout.cells.zipIdx :=
  List.filter_eq_self.2 fun _ _ => rfl

theorem visible_some (hvalid : Valid layout) {c : BundleCell × Nat} (hc : c ∈ layout.cells.zipIdx) :
    visible_cells layout (some (cell_id c.1 c.2)) = [c] := filter_key hvalid.ids hc

/-- The geometry of a plan that shows the whole layout is that of the layout. -/
theorem whole_covers {output : RenderCell} (h : Rendered parse bundle layouts false cell index output)
    {r c : Nat} :
    output.Covers r c ↔ (r, c) ∈ positions cell := by
  rw [RenderCell.Covers, h.row, h.col, h.row_span, h.col_span, mem_positions]
  rfl

/-- A plan whose cells show the visible ones of a valid layout, within the camera budget, is safe. -/
theorem safe_of_rendered {plan : RenderPlan} (hdisplay : bundle.normalized_displays = [display])
    (hlayout : layout ∈ display.layouts) (hvalid : Valid layout) (hid : plan.layout_id = layout.id)
    (hexpanded : ∀ id, plan.expanded_cell_id = some id → ∃ c ∈ layout.cells.zipIdx, cell_id c.1 c.2 = id)
    (hrows : plan.rows = if plan.expanded_cell_id.isSome then 1 else layout.grid_rows)
    (hcols : plan.cols = if plan.expanded_cell_id.isSome then 1 else layout.grid_cols)
    (hcells : List.Forall₂ (fun c output =>
      Rendered parse bundle display.layouts plan.expanded_cell_id.isSome c.1 c.2 output)
        (visible_cells layout plan.expanded_cell_id) plan.cells)
    (hbudget : plan.cells.countP (·.camera.isSome) ≤ MAX_CAMERAS) : Safe parse bundle plan := by
  have hsub : ∀ c ∈ visible_cells layout plan.expanded_cell_id, c ∈ layout.cells.zipIdx :=
    fun c hc => (List.mem_filter.1 hc).1
  have hshown {output : RenderCell} (houtput : output ∈ plan.cells) : ∃ c ∈ layout.cells.zipIdx,
      Rendered parse bundle display.layouts plan.expanded_cell_id.isSome c.1 c.2 output ∧
          Shows bundle plan output c.1 := by
    obtain ⟨c, hc, hr⟩ := exists_of_forall₂ hcells output houtput
    have hget : layout.cells[c.2]? = some c.1 := List.mem_zipIdx_iff_getElem?.1 (hsub c hc)
    exact ⟨c, hsub c hc, hr, display, hdisplay, layout, hlayout, hid.symm, c.2, hget, hr.id⟩
  have hlength : plan.cells.length ≤ MAX_CELLS := by
    rw [← hcells.length_eq]
    refine (List.length_filter_le _ _).trans ?_
    simpa using hvalid.cells_le
  have hcameras : ∀ output ∈ plan.cells, ∀ source, output.camera = some source →
      ∃ cell, Shows bundle plan output cell ∧ source.Of parse bundle cell := by
    intro output houtput source hsource
    obtain ⟨c, -, hr, hs⟩ := hshown houtput
    exact ⟨c.1, hs, hr.camera source hsource⟩
  have hwebs : ∀ output ∈ plan.cells, ∀ source, output.web = some source →
      ∃ cell, Shows bundle plan output cell ∧ source.Of parse cell := by
    intro output houtput source hsource
    obtain ⟨c, -, hr, hs⟩ := hshown houtput
    exact ⟨c.1, hs, hr.web source hsource⟩
  have hswitches : ∀ output ∈ plan.cells, ∀ id, output.action = .SwitchLayout id →
      ∃ display, bundle.normalized_displays = [display] ∧ ∃ layout ∈ display.layouts, layout.id = id := by
    intro output houtput id hswitch
    obtain ⟨c, -, hr, -⟩ := hshown houtput
    exact ⟨display, hdisplay, action_switch (hr.action ▸ hswitch)⟩
  cases hexp : plan.expanded_cell_id with
  | none =>
    rw [hexp, visible_none] at hcells
    simp only [hexp, Option.isSome_none, Bool.false_eq_true, if_false] at hrows hcols hshown
    refine ⟨hrows ▸ hvalid.rows, hcols ▸ hvalid.cols, hlength, ?_, ?_, ?_, hbudget, hcameras, hwebs,
      hswitches, ?_⟩
    · rw [List.Nodup, List.pairwise_map]
      refine pairwise_of_forall₂ hcells (List.pairwise_map.1 hvalid.ids)
        fun c d output output' hr hr' hne => ?_
      rw [hr.id, hr'.id]
      exact hne
    · intro output houtput
      obtain ⟨c, hc, hr, -⟩ := hshown houtput
      rw [hr.row, hr.col, hr.row_span, hr.col_span, hrows, hcols]
      exact hvalid.inside c hc
    · refine pairwise_of_forall₂ hcells hvalid.apart fun c d output output' hr hr' hapart r k hboth => ?_
      exact hapart (r, k) ((whole_covers hr).1 hboth.1) ((whole_covers hr').1 hboth.2)
    · intro id hid
      rw [hexp] at hid
      cases hid
  | some id =>
    -- only the expanded cell is shown
    obtain ⟨c, hc, rfl⟩ := hexpanded id hexp
    simp only [hexp, Option.isSome_some, if_true] at hrows hcols
    rw [hexp, visible_some hvalid hc] at hcells
    obtain ⟨output, outputs, hr, hnil, hplan⟩ := List.forall₂_cons_left_iff.1 hcells
    obtain rfl := List.forall₂_nil_left_iff.1 hnil
    have hplace : output.row = 0 ∧ output.col = 0 ∧ output.row_span = 1 ∧ output.col_span = 1 :=
      ⟨hr.row, hr.col, hr.row_span, hr.col_span⟩
    refine ⟨by omega, by omega, hlength, by simp [hplan], ?_, by
        simp [hplan], hbudget, hcameras, hwebs, hswitches, ?_⟩
    · intro output' houtput
      rw [hplan, List.mem_singleton] at houtput
      subst houtput
      omega
    · intro id hid
      rw [hexp] at hid
      exact ⟨hrows, hcols, output, hplan, hr.id.trans (Option.some.inj hid), hplace⟩

/-- Every plan is safe. -/
theorem render_plan_safe {layout_id expanded_cell_id : Option String} {plan : RenderPlan}
    (h : render_plan parse bundle layout_id expanded_cell_id = .ok plan) : Safe parse bundle plan := by
  rw [render_plan] at h
  split at h
  · cases h
  · next display hdisplay =>
    split at h
    · cases h
    dsimp only at h
    split at h
    · cases h
    next layout hlayout =>
    split at h
    · cases h
    next hvalidate =>
    obtain rfl := Except.ok.inj h
    obtain ⟨hrendered, hbudget⟩ := @render_cells_ok parse bundle display layout
      (expanded_cell bundle layout expanded_cell_id).isSome _ 0 (Nat.zero_le MAX_CAMERAS)
    exact safe_of_rendered hdisplay (List.mem_of_find?_eq_some hlayout) (valid_of_validate hvalidate) rfl
      (fun _ => expanded_cell_some) rfl rfl hrendered hbudget
  · cases h

/-- One display with one layout: a camera beside an empty cell. -/
def lobby : KioskBundle where
  kiosk_id := "k"
  display := none
  layouts := []
  displays := [{
    id := "d", idle_timeout_seconds := 0, sleep_timeout_seconds := 0, default_layout_id := none
    layouts := [⟨"l", "Lobby", 2, 1, none, true, false,
      [⟨some "a", 0, 0, 1, 1, "camera", some "c", none, none, none, "cover", false, none, none⟩,
        ⟨none, 0, 1, 1, 1, "none", none, none, none, none, "cover", false, none, none⟩]⟩] }]
  cameras := [⟨"c", "Door", true, none, [⟨"main", "rtsp://nvr/main", none⟩], none, none⟩]

/-- A parser that knows one URL. -/
def lobbyParser : Parser := fun value =>
  if value = "rtsp://nvr/main" then some ⟨"rtsp", some "nvr", "", none, "null"⟩ else none

theorem render_plan_safe_lobby : ∃ plan, render_plan lobbyParser lobby none (some "a") = .ok plan ∧
    plan.expanded_cell_id = some "a" ∧ plan.cells.countP (·.camera.isSome) = 1 ∧
    Safe lobbyParser lobby plan := by
  refine ⟨_, rfl, ?_, ?_, @render_plan_safe lobbyParser lobby none (some "a") _ rfl⟩
  · decide
  · decide

end Android
