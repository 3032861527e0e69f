import BetterFrame.Server.BundleVersion

/-!
# What a bundle is assembled from

Every secret of a bundle is the value of a member that the copy fingerprints, under a context
without NUL. A change of the values that administrators store under the name `version` goes through
to the bundle as it is and changes nothing else.
-/

namespace Bundle

open Json (stringOf)

variable {Iv : Type} {P : Platform Iv} {db : Database}

/-! ### Text without NUL -/

theorem noNul_iff {s : String} : noNul s ↔ '\x00' ∉ s.toList := by simp [noNul]

theorem noNul_append {s t : String} : noNul (s ++ t) ↔ noNul s ∧ noNul t := by
  rw [noNul_iff, noNul_iff, noNul_iff, String.toList_append, List.mem_append, not_or]

@[simp] theorem noNulItems_iff {xs : List Json} : NoNulItems xs ↔ ∀ x ∈ xs, NoNul x := by
  induction xs with
  | nil => simp [NoNulItems]
  | cons x xs ih => simp [NoNulItems, ih]

@[simp] theorem noNulMembers_iff {ms : Record} : NoNulMembers ms ↔ ∀ m ∈ ms, NoNul m.2 := by
  induction ms with
  | nil => simp [NoNulMembers]
  | cons m ms ih => simp [NoNulMembers, ih]

theorem noNul_arr {xs : List Json} : NoNul (.arr xs) ↔ ∀ x ∈ xs, NoNul x := by rw [NoNul, noNulItems_iff]

theorem noNul_obj {ms : Record} : NoNul (.obj ms) ↔ ∀ m ∈ ms, NoNul m.2 := by rw [NoNul, noNulMembers_iff]

theorem mem_of_get? {k : String} {j v : Json} (h : j.get? k = some v) : ∃ ms, j = .obj ms ∧ (k, v) ∈ ms := by
  cases j with
  | obj ms =>
    obtain ⟨m, hm, rfl⟩ := Option.map_eq_some_iff.1 h
    have hk : m.1 = k := by simpa using List.find?_some hm
    exact ⟨ms, rfl, hk ▸ List.mem_reverse.1 (List.mem_of_find?_eq_some hm)⟩
  | _ => cases h

theorem noNul_get? {k : String} {j v : Json} (hj : NoNul j) (h : j.get? k = some v) : NoNul v := by
  obtain ⟨ms, rfl, hm⟩ := mem_of_get? h
  exact noNul_obj.1 hj _ hm

theorem noNul_intercalate {ss : List String} (h : ∀ s ∈ ss, noNul s) : noNul (String.intercalate "," ss) := by
  induction ss with
  | nil => decide
  | cons s ss ih =>
    obtain ⟨hs, hss⟩ := List.forall_mem_cons.1 h
    cases ss with
    | nil => simpa using hs
    | cons t ss =>
      rw [String.intercalate_cons_cons]
      exact noNul_append.2 ⟨noNul_append.2 ⟨hs, by decide⟩, ih hss⟩

theorem noNul_elementsOf {xs : List Json} (h : ∀ x ∈ xs, noNul (stringOf x)) :
    ∀ s ∈ Json.elementsOf xs, noNul s := by
  induction xs with
  | nil => exact nofun
  | cons x xs ih =>
    have ih := ih fun y hy => h y (List.mem_cons_of_mem _ hy)
    have hx := h x (List.mem_cons_self ..)
    cases x with
    | null => exact List.forall_mem_cons.2 ⟨by decide, ih⟩
    | _ => exact List.forall_mem_cons.2 ⟨hx, ih⟩

theorem noNul_stringOf {j : Json} : NoNul j → noNul (stringOf j) := by
  induction j using Json.parts with
  | leaf j harr hobj =>
    intro hj
    cases j with
    | null => decide
    | bool b => cases b <;> decide
    | num n =>
      rw [stringOf, noNul_iff, String.toList_ofList]
      intro hmem
      exact absurd (n.chars _ hmem) (by decide)
    | str s => exact hj
    | arr xs => exact absurd rfl (harr xs)
    | obj ms => exact absurd rfl (hobj ms)
  | harr xs ih =>
    exact fun hj => noNul_intercalate (noNul_elementsOf fun x hx => ih x hx (noNul_arr.1 hj x hx))
  | hobj => exact fun _ => by rw [stringOf]; decide

theorem noNul_spreadOf {j : Json} (hj : NoNul j) : ∀ m ∈ spreadOf j, NoNul m.2 := by
  intro m hm
  cases j with
  | str s =>
    obtain ⟨⟨c, i⟩, hc, rfl⟩ := List.mem_map.1 hm
    have hmem : c ∈ s.toList := (List.mem_zipIdx hc).2.2 ▸ List.getElem_mem _
    have hs : '\x00' ∉ s.toList := noNul_iff.1 hj
    show noNul (String.singleton c)
    rw [noNul_iff]
    simp only [String.toList_singleton, List.mem_singleton]
    rintro rfl
    exact hs hmem
  | arr xs =>
    obtain ⟨⟨x, i⟩, hx, rfl⟩ := List.mem_map.1 hm
    have hmem : x ∈ xs := (List.mem_zipIdx hx).2.2 ▸ List.getElem_mem _
    exact noNul_arr.1 hj x hmem
  | obj ms => exact noNul_obj.1 hj m hm
  | _ => exact absurd hm List.not_mem_nil

/-! ### Where the secrets are -/

/-- Every secret is the value of a member that is fingerprinted, and its context has no NUL. -/
def Placed : Doc Secret → Prop := Legible (fun s => noNul s.stableContext) fun _ => True

def PlacedMember : String → Doc Secret → Prop := LegibleMember (fun s => noNul s.stableContext) fun _ => True

variable {α : Type} {d : Doc Secret} {k : String}

theorem Placed.member (h : Placed d) : PlacedMember k d := by
  cases d with
  | hole => exact h.elim
  | str => exact fun _ => trivial
  | _ => exact h

theorem placed_arr {f : α → Doc Secret} {l : List α} (h : ∀ a ∈ l, Placed (f a)) : Placed (.arr (l.map f)) :=
  legible_arr.2 (List.forall_mem_map.2 h)

theorem placed_obj {ms : List (String × Doc Secret)} : Placed (.obj ms) ↔
    ∀ m ∈ ms, PlacedMember m.1 m.2 := legible_obj

theorem placed_object {ms : List (String × Option (Doc Secret))}
    (h : ∀ m ∈ ms, ∀ v, m.2 = some v → PlacedMember m.1 v) :
    Placed (.obj (Doc.object ms)) := by
  refine placed_obj.2 fun m hm => ?_
  obtain ⟨m', hm', hsome⟩ := List.mem_filterMap.1 hm
  obtain ⟨v, hv, rfl⟩ := Option.map_eq_some_iff.1 hsome
  exact h m' hm' v hv

@[simp] theorem placed_str {s : String} : Placed (.str s) := trivial

@[simp] theorem placed_bool {b : Bool} : Placed (.bool b) := trivial

@[simp] theorem placed_null : Placed .null := trivial

@[simp] theorem placed_ofJson {j : Json} : Placed (.ofJson j) := by
  induction j using Json.parts with
  | leaf j harr hobj =>
    cases j with
    | arr xs => exact absurd rfl (harr xs)
    | obj ms => exact absurd rfl (hobj ms)
    | _ => trivial
  | harr xs ih =>
    rw [Doc.ofJson, Doc.ofItems_eq]
    exact placed_arr ih
  | hobj ms ih =>
    rw [Doc.ofJson, Doc.ofMembers_eq]
    exact placed_obj.2 (List.forall_mem_map.2 fun m hm => (ih m hm).member)

@[simp] theorem placed_int {n : Int} : Placed (int n) := placed_ofJson

@[simp] theorem placed_record {r : Record} : Placed (record r) := placed_ofJson

@[simp] theorem placed_texts {ss : List String} : Placed (texts ss) := placed_arr fun _ _ => placed_str

theorem placed_orNull {f : α → Doc Secret} {o : Option α} (h : ∀ a, Placed (f a)) : Placed (orNull f o) := by
  cases o with
  | none => trivial
  | some a => exact h a

/-- Members without secrets. -/
def Plain (ms : List (String × Option (Doc Secret))) : Prop := ∀ m ∈ ms, ∀ v, m.2 = some v → Placed v

theorem Plain.placed {ms : List (String × Option (Doc Secret))} (h : Plain ms) :
    Placed (.obj (Doc.object ms)) :=
  placed_object fun m hm v hv => (h m hm v hv).member

/-- Every encrypted step of the cell. -/
def BundleCell.Placed (c : BundleCell) : Prop := ∀ u, c.smart_url = some u →
  ∀ step ∈ u.steps, Bundle.Placed (.obj step)

/-- Every cell's secrets have usable names. -/
def BundleLayout.Placed (l : BundleLayout) : Prop := ∀ c ∈ l.cells, c.Placed

def BundleDisplay.Placed (d : BundleDisplay) : Prop := ∀ l ∈ d.layouts, l.Placed

theorem SmartUrl.placed {u : SmartUrl} (h : ∀ step ∈ u.steps, Bundle.Placed (.obj step)) :
    Bundle.Placed u.doc := by
  refine Plain.placed ?_
  have hsteps : Bundle.Placed (.arr (u.steps.map .obj)) := placed_arr h
  simp [Plain, hsteps]

theorem BundleCell.placed {c : BundleCell} (h : c.Placed) : Bundle.Placed c.doc := by
  refine Plain.placed ?_
  have hurl (u : SmartUrl) (hu : c.smart_url = some u) : Bundle.Placed u.doc := SmartUrl.placed (h u hu)
  have hstorage (s : LocalStorage) : Bundle.Placed s.doc := Plain.placed (by simp [Plain])
  simpa [Plain, placed_orNull, hstorage] using hurl

theorem BundleLayout.placed {l : BundleLayout} (h : l.Placed) : Bundle.Placed l.doc := by
  refine Plain.placed ?_
  have hcells : Bundle.Placed (.arr (l.cells.map BundleCell.doc)) :=
    placed_arr fun c hc => BundleCell.placed (h c hc)
  simp [Plain, placed_orNull, hcells]

theorem layoutsDoc_placed {ls : List BundleLayout} (h : ∀ l ∈ ls, l.Placed) : Placed (layoutsDoc ls) :=
  placed_arr fun l hl => BundleLayout.placed (h l hl)

theorem BundleDisplay.fields_plain {d : BundleDisplay} : Plain d.fields := by
  simp [Plain, BundleDisplay.fields, placed_orNull]

theorem BundleDisplay.placed {d : BundleDisplay} (h : d.Placed) : Bundle.Placed d.doc := by
  refine Plain.placed (List.forall_mem_append.2 ⟨BundleDisplay.fields_plain, ?_⟩)
  simp [layoutsDoc_placed h]

theorem streamDoc_placed {s : CameraStream} : Placed (streamDoc s) := by
  refine Plain.placed ?_
  have hnum (o : Option Json.Num) : Placed (orNull .num o) := placed_orNull fun _ => trivial
  simp [Plain, placed_orNull, hnum]

theorem gpioDoc_placed {g : GpioBinding} : Placed (gpioDoc g) := by
  refine Plain.placed ?_
  simp [Plain, placed_orNull]

/-- What stands for a password is a secret or null. -/
def BundleCamera.Placed (c : BundleCamera) : Prop :=
  PlacedMember "onvif_password_encrypted" (orNull .hole c.onvif_password_encrypted) ∧
    PlacedMember "playback_password_encrypted" (orNull .hole c.playback_password_encrypted)

theorem BundleCamera.placed {c : BundleCamera} (h : c.Placed) : Bundle.Placed c.doc := by
  refine placed_object ?_
  have hstreams : Bundle.Placed (.arr (c.streams.map streamDoc)) := placed_arr fun _ _ => streamDoc_placed
  simp [Placed.member, placed_orNull, hstreams, h.1, h.2]

theorem operatorConsoleDoc_placed {b : KioskBundle} : Placed (operatorConsoleDoc b) := by
  refine Plain.placed ?_
  have htools : Placed (.arr (b.operator_tools.map fun t =>
        .obj [("label", .str t.1), ("url", .str t.2)])) := by
    refine placed_arr fun t _ => placed_obj.2 ?_
    simp [Placed.member]
  have hvms : Placed (.obj (Doc.object
      [("enabled", some (.bool b.simple_vms_enabled)),
        ("storage_path", some (orNull .str b.simple_vms_storage_path)),
        ("settings", some (record b.simple_vms_settings))])) := by
    refine Plain.placed ?_
    simp [Plain, placed_orNull]
  simp [Plain, placed_orNull, htools, hvms]

/-- Every secret of the bundle has a usable name. -/
def KioskBundle.Placed (b : KioskBundle) : Prop :=
  b.display.Placed ∧ (∀ d ∈ b.displays, d.Placed) ∧ ∀ c ∈ b.cameras, c.Placed

theorem KioskBundle.placed {b : KioskBundle} (h : b.Placed) : Bundle.Placed (.obj b.content) := by
  obtain ⟨hdisplay, hdisplays, hcameras⟩ := h
  refine Plain.placed ?_
  have hdisplays : Bundle.Placed (.arr (b.displays.map BundleDisplay.doc)) :=
    placed_arr fun d hd => BundleDisplay.placed (hdisplays d hd)
  have hcameras : Bundle.Placed (.arr (b.cameras.map BundleCamera.doc)) :=
    placed_arr fun c hc => BundleCamera.placed (hcameras c hc)
  have hgpio : Bundle.Placed (.arr (b.gpio_bindings.map gpioDoc)) := placed_arr fun _ _ => gpioDoc_placed
  simp [Plain, BundleDisplay.fields_plain.placed, layoutsDoc_placed hdisplay, hdisplays, hcameras, hgpio,
    operatorConsoleDoc_placed]

theorem mapM_mem {α β : Type} {f : α → Option β} {l : List α} {r : List β} (h : l.mapM f = some r) :
    ∀ b ∈ r, ∃ a ∈ l, f a = some b := by
  induction l generalizing r with
  | nil =>
    obtain rfl := Option.some.inj h
    exact nofun
  | cons a l ih =>
    simp only [List.mapM_cons, Option.bind_eq_bind, Option.bind_eq_some_iff, Option.pure_def,
      Option.some.injEq] at h
    obtain ⟨b, hb, r, hr, rfl⟩ := h
    refine List.forall_mem_cons.2 ⟨⟨a, List.mem_cons_self .., hb⟩, fun y hy => ?_⟩
    obtain ⟨x, hx, hxy⟩ := ih hr y hy
    exact ⟨x, List.mem_cons_of_mem _ hx, hxy⟩

theorem encryptForBundle_placed {plaintext key context : String} {site : Site} {s : Secret}
    (hk : isEncryptedKey k)
    (hcontext : noNul context) (h : encryptForBundle P plaintext key context site = some s) :
    PlacedMember k (.hole s) := by
  unfold encryptForBundle at h
  split at h
  · rw [← Option.some.inj h]
    exact ⟨hk, hcontext⟩
  · cases h

theorem ofMembers_placed {r : Record} : Placed (.obj (Doc.ofMembers r)) := by
  rw [Doc.ofMembers_eq]
  exact placed_obj.2 (List.forall_mem_map.2 fun m _ => placed_ofJson.member)

theorem assign_placed {ms : List (String × Doc Secret)} (h : Placed (.obj ms)) (hd : PlacedMember k d) :
    Placed (.obj (Doc.assign ms k d)) := by
  rw [placed_obj] at h ⊢
  unfold Doc.assign
  split
  · refine List.forall_mem_map.2 fun m hm => ?_
    split
    · exact hd
    · exact h m hm
  · exact List.forall_mem_append.2 ⟨h, by simpa using hd⟩

theorem buildStep_placed {ek : Option String} {cellId : String} {s : Json} {site : Site}
    {step : List (String × Doc Secret)}
    (hid : noNul cellId) (hs : NoNul s) (h : buildStep P ek cellId s site = some step) :
    Placed (.obj step) := by
  have hplain (h : some (Doc.ofMembers (spreadOf s)) = some step) : Placed (.obj step) :=
    Option.some.inj h ▸ ofMembers_placed
  have hselector : NoNul (Json.orElse ((Json.obj (spreadOf s)).get? "selector") (.str "")) := by
    rcases hsel : (Json.obj (spreadOf s)).get? "selector" with _ | v
    · decide
    · have hv := noNul_get? (noNul_obj.2 (noNul_spreadOf hs)) hsel
      cases v <;> exact hv
  unfold buildStep at h
  dsimp only at h
  split at h
  · split at h
    · split at h
      · obtain ⟨sealed, hsealed, rfl⟩ := Option.map_eq_some_iff.1 h
        have hctx : noNul (smartUrlContext cellId (spreadOf s)) :=
          noNul_append.2 ⟨noNul_append.2 ⟨noNul_append.2 ⟨by decide, hid⟩, by decide⟩,
            noNul_stringOf hselector⟩
        have hmember : PlacedMember "value_encrypted" (.hole sealed) :=
          encryptForBundle_placed (by decide) hctx hsealed
        refine placed_obj.2 fun m hm => ?_
        exact placed_obj.1 (assign_placed ofMembers_placed hmember) m (List.mem_of_mem_filter hm)
      · cases h
    · exact hplain h
  · exact hplain h

theorem buildSmartUrl_placed {viewer : Bool} {ek : Option String} {c : LayoutCell} {site : Nat → Site}
    {u : SmartUrl}
    (h : buildSmartUrl P viewer ek c site = some (some u)) : ∀ step ∈ u.steps, Placed (.obj step) := by
  unfold buildSmartUrl at h
  split at h
  · cases h
  next raw hraw =>
  split at h
  · cases h
  split at h
  · obtain rfl := Option.some.inj (Option.some.inj h)
    exact nofun
  obtain ⟨steps, hsteps, hu⟩ := Option.map_eq_some_iff.1 h
  obtain rfl := Option.some.inj hu
  have hoptions : NoNul raw := noNul_get? c.text.2 hraw
  intro step hstep
  split at hsteps
  · next ss hss =>
    obtain ⟨⟨s, i⟩, hs, hbuild⟩ := mapM_mem hsteps step hstep
    have hmem : s ∈ ss := (List.mem_zipIdx hs).2.2 ▸ List.getElem_mem _
    exact buildStep_placed c.text.1 (noNul_arr.1 (noNul_get? hoptions hss) s hmem) hbuild
  · obtain rfl := Option.some.inj hsteps
    exact absurd hstep List.not_mem_nil

theorem buildCell_placed {viewer : Bool} {ek : Option String} {c : LayoutCell} {site : Nat → Site}
    {cell : BundleCell} (h : buildCell P db viewer ek c site = some cell) : cell.Placed := by
  obtain ⟨smartUrl, hurl, rfl⟩ := Option.map_eq_some_iff.1 h
  intro u hu
  obtain rfl : smartUrl = some u := hu
  exact buildSmartUrl_placed hurl

theorem fullScreen_placed {viewer : Bool} {l : Layout} {ent : Entity} {cell : BundleCell} (h : cell.Placed) :
    (fullScreen viewer l ent cell).Placed := fun c hc => by
  rw [List.mem_singleton.1 hc]
  exact h

theorem operatorLayout_placed {viewer : Bool} {ent : Entity} :
    (operatorLayout P db viewer ent).Placed := fun c hc => by
  rw [List.mem_singleton.1 hc]
  exact nofun

theorem viewerLayout_placed {ids : List String} {l : BundleLayout} (h : l.Placed) :
    (viewerLayout ids l).Placed :=
  List.forall_mem_map.2 h

/-- A step of a loop that adds at most one element keeps what holds of all elements. -/
theorem foldl_all {β γ : Type} {Q : β → Prop} {f : List β → γ → List β} {l : List γ} (acc : List β)
    (hf : ∀ acc, ∀ a ∈ l, (∀ b ∈ acc, Q b) → ∀ b ∈ f acc a, Q b) (hacc : ∀ b ∈ acc, Q b) :
    ∀ b ∈ l.foldl f acc, Q b := by
  induction l generalizing acc with
  | nil => exact hacc
  | cons a l ih =>
    refine ih _ (fun acc x hx => hf acc x (List.mem_cons_of_mem _ hx)) ?_
    exact hf acc a (List.mem_cons_self ..) hacc

theorem addFullScreen_placed {viewer : Bool} {l : Layout} {c : LayoutCell × BundleCell}
    {vs : List (String × BundleLayout)}
    (hc : c.2.Placed) (h : ∀ v ∈ vs, v.2.Placed) : ∀ v ∈ addFullScreen db viewer l vs c, v.2.Placed := by
  unfold addFullScreen
  split
  · exact h
  split
  · exact h
  split
  · exact h
  · exact List.forall_mem_append.2 ⟨h, by simpa using fullScreen_placed hc⟩

theorem addOperator_placed {viewer : Bool} {ent : Entity} {vs : List (String × BundleLayout)}
    (h : ∀ v ∈ vs, v.2.Placed) :
    ∀ v ∈ addOperator P db viewer vs ent, v.2.Placed := by
  unfold addOperator
  split
  · exact h
  · exact List.forall_mem_append.2 ⟨h, by simpa using operatorLayout_placed⟩

theorem virtualLayouts_placed {viewer : Bool} {operatorContent : List Entity} {built : List Built}
    (h : ∀ b ∈ built, ∀ c ∈ b.2, c.2.Placed) :
    ∀ v ∈ virtualLayouts P db viewer operatorContent built, v.2.Placed := by
  have hcells (b : Built) (hb : b ∈ built) (acc : List (String × BundleLayout))
    (hacc : ∀ v ∈ acc, v.2.Placed) :
      ∀ v ∈ b.2.foldl (addFullScreen db viewer b.1) acc, v.2.Placed :=
    foldl_all acc (fun _ c hc => addFullScreen_placed (h b hb c hc)) hacc
  have hscreens := foldl_all [] (fun acc b hb => hcells b hb acc) (by simp)
  exact foldl_all _ (fun _ _ _ => addOperator_placed) hscreens

theorem withVirtual_placed {real : List BundleLayout} {vs : List (String × BundleLayout)}
    (hreal : ∀ l ∈ real, l.Placed)
    (hvs : ∀ v ∈ vs, v.2.Placed) : ∀ l ∈ withVirtual real vs, l.Placed :=
  List.forall_mem_append.2 ⟨hreal, List.forall_mem_map.2 fun v hv => hvs v (List.mem_of_mem_filter hv)⟩

theorem buildLayouts_placed {viewer : Bool} {ek : Option String} {operatorContent : List Entity}
    {displayId : String}
    {defaultLayoutId : Option String} {site : Nat → Nat → Nat → Site} {ls : List BundleLayout}
    (h : buildLayouts P db viewer ek operatorContent displayId defaultLayoutId site = some ls) :
    ∀ l ∈ ls, l.Placed := by
  obtain ⟨built, hbuilt, rfl⟩ := Option.map_eq_some_iff.1 h
  have hcells : ∀ b ∈ built, ∀ c ∈ b.2, c.2.Placed := by
    intro b hb c hc
    obtain ⟨⟨l, i⟩, -, hl⟩ := mapM_mem hbuilt b hb
    obtain ⟨cells, hcells, rfl⟩ := Option.map_eq_some_iff.1 hl
    obtain ⟨⟨row, j⟩, -, hrow⟩ := mapM_mem hcells c hc
    obtain ⟨cell, hcell, rfl⟩ := Option.map_eq_some_iff.1 hrow
    exact buildCell_placed hcell
  have hreal : ∀ l ∈ built.map (realLayout viewer defaultLayoutId), l.Placed :=
    List.forall_mem_map.2 fun b hb => List.forall_mem_map.2 (hcells b hb)
  have hresult : ∀ l ∈ withVirtual _ (virtualLayouts P db viewer operatorContent built), l.Placed :=
    withVirtual_placed hreal (virtualLayouts_placed hcells)
  dsimp only
  split
  · exact List.forall_mem_map.2 fun l hl => viewerLayout_placed (hresult l hl)
  · exact hresult

theorem sealPassword_placed {password ek : Option String} {context : String} {site : Site} {o : Option Secret}
    (hk : isEncryptedKey k) (hcontext : noNul context)
    (h : sealPassword P password ek context site = some o) :
    PlacedMember k (orNull .hole o) := by
  unfold sealPassword at h
  split at h
  · obtain ⟨d, hd, rfl⟩ := Option.map_eq_some_iff.1 h
    exact encryptForBundle_placed hk hcontext hd
  · obtain rfl := Option.some.inj h
    exact placed_null.member

theorem buildCamera_placed {draws : Draws Iv} {kioskId : String} {viewer : Bool} {ek : Option String}
    {cam : Camera}
    {position : Nat} {c : BundleCamera}
    (h : buildCamera P db draws kioskId viewer ek cam position = some c) : c.Placed := by
  simp only [buildCamera, Option.bind_eq_bind, Option.bind_eq_some_iff, Option.pure_def,
    Option.some.injEq] at h
  obtain ⟨onvif, honvif, playback, hplayback, rfl⟩ := h
  have hcontext (s : String) (hs : noNul s) : noNul (s ++ cam.id) := noNul_append.2 ⟨hs, cam.text⟩
  exact ⟨sealPassword_placed (by decide) (hcontext _ (by decide)) honvif,
    sealPassword_placed (by decide) (hcontext _ (by decide)) hplayback⟩

theorem assemble_placed {c : Call Iv} {kioskId : String} {b : KioskBundle}
    (h : assemble P c kioskId = some (some b)) :
    b.Placed := by
  unfold assemble at h
  split at h
  · cases h
  dsimp only at h
  split at h
  · cases h
  split at h
  · cases h
  simp only [Option.bind_eq_bind, Option.bind_eq_some_iff, Option.pure_def, Option.some.injEq] at h
  obtain ⟨displays, hdisplays, cameras, hcameras, primary, hprimary, rfl⟩ := h
  have hall : ∀ d ∈ displays, d.Placed := fun d hd => by
    obtain ⟨⟨row, i⟩, -, hrow⟩ := mapM_mem hdisplays d hd
    obtain ⟨layouts, hlayouts, rfl⟩ := Option.map_eq_some_iff.1 hrow
    exact buildLayouts_placed hlayouts
  refine ⟨hall _ (List.mem_of_mem_head? hprimary), hall, fun cam hcam => ?_⟩
  obtain ⟨⟨row, i⟩, -, hrow⟩ := mapM_mem hcameras cam hcam
  exact buildCamera_placed hrow

end Bundle
