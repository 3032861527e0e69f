import BetterFrame.Server.BundleContent

/-!
# A state with other values under a hidden name

`altered` changes every value that is stored under the name `version` or `__proto__`, at any depth
of the JSON that administrators store, and nothing else. `generateBundle` reads no member of these
names, so what it assembles from the altered state is the altered bundle (`assemble_altered`), which
the hashed copy does not tell from the first.
-/

namespace Json

open Bundle (hidden)

mutual

/-- Every member that the stable form leaves out gets another value. -/
def altered : Json → Json
  | .arr xs => .arr (alteredItems xs)
  | .obj ms => .obj (alteredMembers ms)
  | j => j

def alteredItems : List Json → List Json
  | [] => []
  | x :: xs => altered x :: alteredItems xs

def alteredMembers : List (String × Json) → List (String × Json)
  | [] => []
  | (k, v) :: ms => (k, if hidden k then .arr [v] else altered v) :: alteredMembers ms

end

variable {xs : List Json} {ms : List (String × Json)} {j : Json} {k : String}

@[simp] theorem alteredItems_eq : alteredItems xs = xs.map altered := by
  induction xs with
  | nil => rfl
  | cons x xs ih => rw [alteredItems, ih, List.map_cons]

def alteredMember (m : String × Json) : String × Json := (m.1, if hidden m.1 then .arr [m.2] else altered m.2)

@[simp] theorem alteredMembers_eq : alteredMembers ms = ms.map alteredMember := by
  induction ms with
  | nil => rfl
  | cons m ms ih =>
    rw [alteredMembers, ih, List.map_cons]
    rfl

@[simp] theorem altered_arr : altered (.arr xs) = .arr (xs.map altered) := by rw [altered, alteredItems_eq]

@[simp] theorem altered_obj : altered (.obj ms) = .obj (ms.map alteredMember) := by
  rw [altered, alteredMembers_eq]

theorem alteredMember_ne {v : Json} (hk : hidden k = false) : alteredMember (k, v) = (k, altered v) := by
  simp [alteredMember, hk]

theorem get?_altered (hk : hidden k = false) : (altered j).get? k = (j.get? k).map altered := by
  cases j with
  | obj ms =>
    rw [altered_obj, get?, get?, ← List.map_reverse, List.find?_map, Option.map_map, Option.map_map]
    have hfun : ((fun m : String × Json => decide (m.1 = k)) ∘ alteredMember) = fun m =>
        decide (m.1 = k) := rfl
    rw [hfun]
    rcases hf : ms.reverse.find? fun m => decide (m.1 = k) with _ | m
    · rw [hf]
      rfl
    · have hm : m.1 = k := by simpa using List.find?_some hf
      rw [hf]
      simp [alteredMember, hm, hk]
  | arr xs => rw [altered_arr]; rfl
  | _ => rfl

theorem get?_alteredMembers (hk : hidden k = false) :
    (Json.obj (ms.map alteredMember)).get? k = ((Json.obj ms).get? k).map altered := by
  rw [← altered_obj]
  exact get?_altered hk

theorem elementsOf_altered (h : ∀ x ∈ xs, stringOf (altered x) = stringOf x) :
    elementsOf (xs.map altered) = elementsOf xs := by
  induction xs with
  | nil => rfl
  | cons x xs ih =>
    have ih := ih fun y hy => h y (List.mem_cons_of_mem _ hy)
    have hx := h x (List.mem_cons_self ..)
    cases x with
    | null => exact congrArg (List.cons "") ih
    | arr ys =>
      rw [altered_arr] at hx
      rw [List.map_cons, altered_arr, elementsOf, elementsOf, hx, ih] <;> simp
    | obj ms =>
      rw [altered_obj] at hx
      rw [List.map_cons, altered_obj, elementsOf, elementsOf, hx, ih] <;> simp
    | _ => exact congrArg (List.cons _) ih

theorem stringOf_altered : stringOf (altered j) = stringOf j := by
  induction j using parts with
  | leaf j harr hobj =>
    cases j with
    | arr xs => exact absurd rfl (harr xs)
    | obj ms => exact absurd rfl (hobj ms)
    | _ => rfl
  | harr xs ih => rw [altered_arr, stringOf, stringOf, elementsOf_altered ih]
  | hobj ms ih => rw [altered_obj, stringOf, stringOf]

theorem stringOf_orElse_altered {o : Option Json} {s : String} :
    stringOf (orElse (o.map altered) (.str s)) = stringOf (orElse o (.str s)) := by
  rcases o with _ | j
  · rfl
  · cases j with
    | null => rfl
    | _ => exact stringOf_altered

theorem bind_get?_altered {o : Option Json} (hk : hidden k = false) :
    (o.map altered).bind (get? k) = (o.bind (get? k)).map altered := by
  cases o with
  | none => rfl
  | some j => exact get?_altered hk

end Json

namespace Doc

open Bundle (hidden)

variable {α β : Type}

/-- The same for a document with secrets. -/
def altered : Doc α → Doc α := run
  { leaf := fun d => d
    arr := fun xs => .arr (xs.map Prod.snd)
    obj := fun ms => .obj (ms.map fun m => (m.1, if hidden m.1 then .arr [m.2.1] else m.2.2)) }

def alteredMember (m : String × Doc α) : String × Doc α :=
  (m.1, if hidden m.1 then .arr [m.2] else altered m.2)

variable {xs : List (Doc α)} {ms : List (String × Doc α)} {d : Doc α} {k : String}

@[simp] theorem altered_arr : altered (.arr xs) = .arr (xs.map altered) := by simp [altered, run_arr]

@[simp] theorem altered_obj : altered (.obj ms) = .obj (ms.map alteredMember) := by
  rw [altered, run_obj]
  dsimp only
  rw [List.map_map]
  rfl

theorem altered_ofJson {j : Json} : (ofJson j.altered : Doc α) = (ofJson j).altered := by
  induction j using Json.parts with
  | leaf j harr hobj =>
    cases j with
    | arr xs => exact absurd rfl (harr xs)
    | obj ms => exact absurd rfl (hobj ms)
    | _ => rfl
  | harr xs ih =>
    rw [Json.altered_arr, ofJson, ofJson, ofItems_eq, ofItems_eq, altered_arr, List.map_map, List.map_map]
    exact congrArg arr (List.map_congr_left ih)
  | hobj ms ih =>
    rw [Json.altered_obj, ofJson, ofJson, ofMembers_eq, ofMembers_eq, altered_obj, List.map_map, List.map_map]
    refine congrArg obj (List.map_congr_left ?_)
    rintro ⟨k, v⟩ hm
    by_cases hk : hidden k = true
    · simp [Json.alteredMember, alteredMember, hk, ofJson]
    · simpa [Json.alteredMember, alteredMember, hk] using ih _ hm

theorem altered_map {f : α → β} : (altered d).map f = altered (d.map f) := by
  induction d using parts with
  | leaf d harr hobj =>
    cases d with
    | arr xs => exact absurd rfl (harr xs)
    | obj ms => exact absurd rfl (hobj ms)
    | _ => rfl
  | harr xs ih =>
    rw [altered_arr, map_arr, map_arr, altered_arr, List.map_map, List.map_map]
    exact congrArg arr (List.map_congr_left ih)
  | hobj ms ih =>
    rw [altered_obj, map_obj, map_obj, altered_obj, List.map_map, List.map_map]
    refine congrArg obj (List.map_congr_left ?_)
    rintro ⟨k, v⟩ hm
    by_cases hk : hidden k = true
    · simp [alteredMember, hk]
    · simpa [alteredMember, hk] using ih _ hm

theorem arr_ne {v : Doc α} : arr [v] ≠ v := by
  intro h
  have hsize := congrArg sizeOf h
  simp only [arr.sizeOf_spec, List.cons.sizeOf_spec, List.nil.sizeOf_spec] at hsize
  omega

/-- Only a document without a hidden name is as it was. -/
theorem names_of_altered_eq (hk : hidden k = true) (h : altered d = d) : d.names k = false := by
  induction d using parts with
  | leaf d harr hobj =>
    cases d with
    | arr xs => exact absurd rfl (harr xs)
    | obj ms => exact absurd rfl (hobj ms)
    | _ => rfl
  | harr xs ih =>
    rw [altered_arr] at h
    rw [names_arr, List.any_eq_false]
    have hall : ∀ x ∈ xs, altered x = x := List.map_inj_left.1 ((arr.inj h).trans (List.map_id _).symm)
    exact fun x hx => by simp [ih x hx (hall x hx)]
  | hobj ms ih =>
    rw [altered_obj] at h
    rw [names_obj, List.any_eq_false]
    have hall : ∀ m ∈ ms, alteredMember m = m := List.map_inj_left.1 ((obj.inj h).trans (List.map_id _).symm)
    rintro ⟨k', v⟩ hm
    have hv : (if hidden k' then arr [v] else altered v) = v := congrArg Prod.snd (hall _ hm)
    by_cases hk' : hidden k' = true
    · rw [if_pos hk'] at hv
      exact absurd hv arr_ne
    · rw [if_neg hk'] at hv
      have hne : ¬ k' = k := by
        rintro rfl
        exact hk' hk
      simp [hne, ih _ hm hv]

/-- The altered document has the names that the document has. -/
theorem names_altered : d.altered.names k = d.names k := by
  induction d using parts with
  | leaf d harr hobj =>
    cases d with
    | arr xs => exact absurd rfl (harr xs)
    | obj ms => exact absurd rfl (hobj ms)
    | _ => rfl
  | harr xs ih =>
    rw [altered_arr, names_arr, names_arr, List.any_map]
    exact any_congr_mem ih
  | hobj ms ih =>
    rw [altered_obj, names_obj, names_obj, List.any_map]
    refine any_congr_mem fun m hm => ?_
    by_cases hk : hidden m.1 = true
    · simp [alteredMember, hk]
    · simp [alteredMember, hk, ih m hm]

end Doc

namespace Bundle

open Text
open Json (stringOf)

variable {Iv : Type} {P : Platform Iv} {db : Database} {d : Doc Secret}

/-! ### Altered documents -/

theorem blank_altered : blank d.altered = blank d := by
  induction d using Doc.parts with
  | leaf d harr hobj =>
    cases d with
    | arr xs => exact absurd rfl (harr xs)
    | obj ms => exact absurd rfl (hobj ms)
    | _ => rfl
  | harr xs ih =>
    rw [Doc.altered_arr, blank_arr, blank_arr, List.map_map]
    exact congrArg Doc.arr (List.map_congr_left ih)
  | hobj ms ih =>
    have hnames : ((fun m : String × Doc Secret => decide (m.1 ≠ "__proto__")) ∘ Doc.alteredMember) =
        fun m => decide (m.1 ≠ "__proto__") := rfl
    rw [Doc.altered_obj, blank_obj, blank_obj, List.filter_map, hnames, List.map_map]
    refine congrArg Doc.obj (List.map_congr_left ?_)
    rintro ⟨k, v⟩ hm
    obtain ⟨hm, hproto⟩ : (k, v) ∈ ms ∧ ¬ k = "__proto__" := by simpa using List.mem_filter.1 hm
    by_cases hk : k = "version"
    · simp [Doc.alteredMember, hk]
    · simpa [Doc.alteredMember, hidden, hk, hproto] using ih _ hm

theorem holes_altered : d.altered.holes ⊆ d.holes := by
  induction d using Doc.parts with
  | leaf d harr hobj =>
    cases d with
    | arr xs => exact absurd rfl (harr xs)
    | obj ms => exact absurd rfl (hobj ms)
    | _ => exact fun _ h => h
  | harr xs ih =>
    intro a ha
    rw [Doc.altered_arr, Doc.holes_arr, List.flatMap_map] at ha
    obtain ⟨x, hx, ha⟩ := List.mem_flatMap.1 ha
    rw [Doc.holes_arr]
    exact List.mem_flatMap.2 ⟨x, hx, ih x hx ha⟩
  | hobj ms ih =>
    intro a ha
    rw [Doc.altered_obj, Doc.holes_obj, List.flatMap_map] at ha
    obtain ⟨⟨k, v⟩, hm, ha⟩ := List.mem_flatMap.1 ha
    rw [Doc.holes_obj]
    refine List.mem_flatMap.2 ⟨_, hm, ?_⟩
    by_cases hk : hidden k = true
    · simpa [Doc.alteredMember, hk] using ha
    · exact ih _ hm (by simpa [Doc.alteredMember, hk] using ha)

theorem encryptedStrings_altered : encryptedStrings d.altered ⊆ encryptedStrings d := by
  induction d using Doc.parts with
  | leaf d harr hobj =>
    cases d with
    | arr xs => exact absurd rfl (harr xs)
    | obj ms => exact absurd rfl (hobj ms)
    | _ => exact fun _ h => h
  | harr xs ih =>
    intro t ht
    rw [Doc.altered_arr, encryptedStrings_arr, List.flatMap_map] at ht
    obtain ⟨x, hx, ht⟩ := List.mem_flatMap.1 ht
    rw [encryptedStrings_arr]
    exact List.mem_flatMap.2 ⟨x, hx, ih x hx ht⟩
  | hobj ms ih =>
    intro t ht
    rw [Doc.altered_obj, encryptedStrings_obj, List.flatMap_map] at ht
    obtain ⟨⟨k, v⟩, hm, ht⟩ := List.mem_flatMap.1 ht
    rw [encryptedStrings_obj]
    refine List.mem_flatMap.2 ⟨_, hm, ?_⟩
    by_cases hk : hidden k = true
    · have ht : t ∈ encryptedStrings v := by simpa [Doc.alteredMember, hk, memberStrings] using ht
      cases v with
      | str s => exact absurd ht List.not_mem_nil
      | _ => exact ht
    · simp only [Doc.alteredMember, if_neg hk] at ht
      cases v with
      | str s => exact ht
      | arr xs =>
        rw [Doc.altered_arr] at ht
        exact ih _ hm (by rw [Doc.altered_arr]; exact ht)
      | obj ms =>
        rw [Doc.altered_obj] at ht
        exact ih _ hm (by rw [Doc.altered_obj]; exact ht)
      | _ => exact ih _ hm ht

/-! ### Altered rows -/

def Kiosk.altered (k : Kiosk) : Kiosk :=
  { k with
    simple_vms_settings_json := k.simple_vms_settings_json.map fun raw =>
      match Json.parse raw with
      | some j => j.altered.stringify
      | none => raw }

def Layout.altered (l : Layout) : Layout :=
  { l with input_options_json := l.input_options_json.map Json.alteredMember }

theorem noNul_altered {j : Json} : NoNul j → NoNul j.altered := by
  induction j using Json.parts with
  | leaf j harr hobj =>
    cases j with
    | arr xs => exact absurd rfl (harr xs)
    | obj ms => exact absurd rfl (hobj ms)
    | _ => exact fun h => h
  | harr xs ih =>
    intro h
    rw [Json.altered_arr, noNul_arr]
    exact List.forall_mem_map.2 fun x hx => ih x hx (noNul_arr.1 h x hx)
  | hobj ms ih =>
    intro h
    rw [Json.altered_obj, noNul_obj]
    refine List.forall_mem_map.2 ?_
    rintro ⟨k, v⟩ hm
    have hv : NoNul v := noNul_obj.1 h _ hm
    by_cases hk : hidden k = true
    · simpa [Json.alteredMember, hk, noNul_arr] using hv
    · rw [Json.alteredMember_ne (by simpa using hk)]
      exact ih _ hm hv

def LayoutCell.altered (c : LayoutCell) : LayoutCell :=
  { c with
    options := c.options.map Json.alteredMember
    input_options_json := c.input_options_json.map Json.alteredMember
    text := ⟨c.text.1, by
      rw [← Json.altered_obj]
      exact noNul_altered c.text.2⟩ }

def Entity.altered (e : Entity) : Entity :=
  { e with input_options_json := e.input_options_json.map Json.alteredMember }

theorem Entity.altered_id {e : Entity} : e.altered.id = e.id := rfl

def Camera.altered (c : Camera) : Camera :=
  { c with recording_config_json := c.recording_config_json.map Json.alteredMember }

def Database.altered (db : Database) : Database :=
  { db with
    getKioskById := fun id => (db.getKioskById id).map Kiosk.altered
    layoutsForDisplayId := fun id => (db.layoutsForDisplayId id).map Layout.altered
    camerasForLayoutIds := fun ids => (db.camerasForLayoutIds ids).map Camera.altered
    camerasForLabelIds := fun ids => (db.camerasForLabelIds ids).map Camera.altered
    listEntities := db.listEntities.map Entity.altered
    layoutCells := fun id => (db.layoutCells id).map LayoutCell.altered
    getEntityById := fun id => (db.getEntityById id).map Entity.altered
    getCameraById := fun id => (db.getCameraById id).map Camera.altered }

def SmartUrl.altered (u : SmartUrl) : SmartUrl where
  steps := u.steps.map (List.map Doc.alteredMember)
  login_detect_url := u.login_detect_url.map Json.altered
  session_check_interval_ms := u.session_check_interval_ms.map Json.altered

def BundleCell.altered (c : BundleCell) : BundleCell :=
  { c with
    smart_url := c.smart_url.map SmartUrl.altered
    input_options := c.input_options.map (List.map Json.alteredMember) }

def BundleLayout.altered (l : BundleLayout) : BundleLayout :=
  { l with
    cells := l.cells.map BundleCell.altered
    input_options := l.input_options.map (List.map Json.alteredMember) }

def BundleDisplay.altered (d : BundleDisplay) : BundleDisplay :=
  { d with layouts := d.layouts.map BundleLayout.altered }

def BundleCamera.altered (c : BundleCamera) : BundleCamera :=
  { c with recording_config := c.recording_config.map Json.alteredMember }

def KioskBundle.altered (b : KioskBundle) : KioskBundle :=
  { b with
    display := b.display.altered
    displays := b.displays.map BundleDisplay.altered
    cameras := b.cameras.map BundleCamera.altered
    simple_vms_settings := b.simple_vms_settings.map Json.alteredMember }

/-! ### Altered cells -/

variable {α β γ δ : Type}

/-- A loop over altered rows builds what is built of the rows, altered. -/
theorem mapM_map_eq {f : α → Option β} {f' : γ → Option δ} {g : α → γ} {h : β → δ} {l : List α}
    (hf : ∀ a ∈ l, f' (g a) = (f a).map h) : (l.map g).mapM f' = (l.mapM f).map (List.map h) := by
  induction l with
  | nil => rfl
  | cons a l ih =>
    rw [List.map_cons, List.mapM_cons, List.mapM_cons, hf a (List.mem_cons_self ..),
      ih fun x hx => hf x (List.mem_cons_of_mem _ hx)]
    cases f a <;> cases l.mapM f <;> rfl

theorem mapM_eq_map {f : α → Option β} {f' : α → Option δ} {h : β → δ} {l : List α}
    (hf : ∀ a, f' a = (f a).map h) :
    l.mapM f' = (l.mapM f).map (List.map h) := by
  rw [← mapM_map_eq (g := id) fun a _ => hf a, List.map_id]

theorem mapM_zipIdx_eq (f : α → Nat → Option β) (f' : γ → Nat → Option δ) {g : α → γ} {h : β → δ} {l : List α}
    (hf : ∀ a i, f' (g a) i = (f a i).map h) :
    ((l.map g).zipIdx.mapM fun x => f' x.1 x.2) = (l.zipIdx.mapM fun x => f x.1 x.2).map (List.map h) := by
  rw [List.zipIdx_map]
  exact mapM_map_eq fun a _ => hf a.1 a.2

theorem isTrue_altered {j : Json} : isTrue j.altered = isTrue j := by
  cases j with
  | arr => rw [Json.altered_arr]; rfl
  | obj => rw [Json.altered_obj]; rfl
  | _ => rfl

theorem asStr?_altered {j : Json} : j.altered.asStr? = j.asStr? := by
  cases j with
  | arr => rw [Json.altered_arr]; rfl
  | obj => rw [Json.altered_obj]; rfl
  | _ => rfl

/-- The index of an element is no hidden name. -/
theorem hidden_index {i : Nat} : hidden (toString i) = false := by
  have hne (s : String) (c : Char) (hc : c ∈ s.toList) (hdigit : c.isDigit = false) : toString i ≠ s := by
    intro h
    have hlist : Nat.toDigits 10 i = s.toList := by
      rw [← h]
      exact (String.toList_ofList).symm
    rw [← hlist] at hc
    exact absurd (Nat.isDigit_of_mem_toDigits (by decide) (by decide) hc) (by simp [hdigit])
  have hversion := hne "version" 'v' (by decide) (by decide)
  have hproto := hne "__proto__" 'p' (by decide) (by decide)
  rw [hidden, decide_eq_false hversion, decide_eq_false hproto, Bool.or_false]

theorem spreadOf_altered {j : Json} : spreadOf j.altered = (spreadOf j).map Json.alteredMember := by
  cases j with
  | str s =>
    show spreadOf (.str s) = _
    rw [spreadOf, List.map_map]
    refine List.map_congr_left fun c _ => ?_
    exact (Json.alteredMember_ne (v := .str (String.singleton c.1)) hidden_index).symm
  | arr xs =>
    rw [Json.altered_arr, spreadOf, Json.spread, spreadOf, Json.spread, List.zipIdx_map,
      List.map_map, List.map_map]
    · refine List.map_congr_left fun x _ => ?_
      exact (Json.alteredMember_ne hidden_index).symm
    · simp
    · simp
  | obj ms =>
    rw [Json.altered_obj]
    rfl
  | _ => rfl

theorem ofMembers_altered {r : Record} :
    (Doc.ofMembers (r.map Json.alteredMember) : List (String × Doc Secret)) = (Doc.ofMembers r).map
    Doc.alteredMember := by
  have h : (Doc.ofJson (Json.obj r).altered : Doc Secret) = (Doc.ofJson (.obj r)).altered :=
    Doc.altered_ofJson
  rw [Json.altered_obj, Doc.ofJson, Doc.ofJson, Doc.altered_obj] at h
  exact Doc.obj.inj h

theorem assign_altered {ms : List (String × Doc Secret)} {k : String} {s : Secret} (hk : hidden k = false) :
    Doc.assign (ms.map Doc.alteredMember) k
    (.hole s) = (Doc.assign ms k (.hole s)).map Doc.alteredMember := by
  have hany : ((ms.map Doc.alteredMember).any fun m => m.1 = k) = ms.any fun m => m.1 = k := by
    rw [List.any_map]
    rfl
  have hhole : Doc.alteredMember (k, .hole s) = (k, .hole s) := by
    rw [Doc.alteredMember, hk]
    rfl
  unfold Doc.assign
  rw [hany]
  split
  · rw [List.map_map, List.map_map]
    refine List.map_congr_left fun m _ => ?_
    by_cases hm : m.1 = k
    · simp [Doc.alteredMember, hm, hk]
      rfl
    · simp [Doc.alteredMember, hm]
  · rw [List.map_append, List.map_singleton, hhole]

theorem smartUrlContext_altered {cellId : String} {step : Record} :
    smartUrlContext cellId (step.map Json.alteredMember) = smartUrlContext cellId step := by
  unfold smartUrlContext
  rw [Json.get?_alteredMembers (by simp [hidden]), Json.stringOf_orElse_altered]

theorem buildStep_altered {ek : Option String} {cellId : String} {s : Json} {site : Site} :
    buildStep P ek cellId s.altered site = (buildStep P ek cellId s site).map
    (List.map Doc.alteredMember) := by
  unfold buildStep
  rw [spreadOf_altered]
  dsimp only
  rw [smartUrlContext_altered, ofMembers_altered, Json.get?_alteredMembers (by simp [hidden]),
    Json.get?_alteredMembers (by simp [hidden])]
  have htype : (((Json.obj (spreadOf s)).get? "type").map Json.altered).bind Json.asStr? =
      ((Json.obj (spreadOf s)).get? "type").bind Json.asStr? := by
    cases (Json.obj (spreadOf s)).get? "type" with
    | none => rfl
    | some v => exact asStr?_altered
  rw [htype]
  cases ek with
  | none =>
    cases (Json.obj (spreadOf s)).get? "value" <;> rfl
  | some ek =>
    cases (Json.obj (spreadOf s)).get? "value" with
    | none => rfl
    | some v =>
      rw [Option.map_some]
      dsimp only
      rw [isTrue_altered]
      split
      · cases v with
        | str p =>
          show Option.map _ (encryptForBundle P p ek _ site) = Option.map _
            (Option.map _ (encryptForBundle P p ek _ site))
          unfold encryptForBundle
          split
          · rw [Option.map_some, Option.map_some, Option.map_some, assign_altered (by simp [hidden]),
              List.filter_map]
            rfl
          · rfl
        | arr => rw [Json.altered_arr]; rfl
        | obj => rw [Json.altered_obj]; rfl
        | _ => rfl
      · rfl

theorem buildSmartUrl_altered {viewer : Bool} {ek : Option String} {c : LayoutCell} {site : Nat → Site} :
    buildSmartUrl P viewer ek c.altered site = (buildSmartUrl P viewer ek c site).map
    (Option.map SmartUrl.altered) := by
  unfold buildSmartUrl
  have hget : (Json.obj c.altered.options).get? "smart_url" = ((Json.obj c.options).get? "smart_url").map
      Json.altered :=
    Json.get?_alteredMembers (by simp [hidden])
  rw [hget]
  cases (Json.obj c.options).get? "smart_url" with
  | none => rfl
  | some raw =>
    rw [Option.map_some]
    dsimp only
    rw [isTrue_altered]
    split
    · rfl
    split
    · rfl
    rw [Json.get?_altered (by simp [hidden]), Json.get?_altered (by simp [hidden]),
      Json.get?_altered (by simp [hidden])]
    cases raw.get? "steps" with
    | none => rfl
    | some ss =>
      cases ss with
      | arr xs =>
        rw [Option.map_some, Json.altered_arr]
        dsimp only
        have hsteps : ((xs.map Json.altered).zipIdx.mapM fun x =>
          buildStep P ek c.altered.id x.1 (site x.2)) =
            (xs.zipIdx.mapM fun x => buildStep P ek c.id x.1 (site x.2)).map
                (List.map (List.map Doc.alteredMember)) :=
          mapM_zipIdx_eq (fun s i => buildStep P ek c.id s (site i))
            (fun s i => buildStep P ek c.id s (site i))
            fun _ _ => buildStep_altered
        rw [hsteps, Option.map_map, Option.map_map]
        rfl
      | obj => rw [Option.map_some, Json.altered_obj]; rfl
      | _ => rfl

theorem buildCell_altered {viewer : Bool} {ek : Option String} {c : LayoutCell} {site : Nat → Site} :
    buildCell P db.altered viewer ek c.altered site = (buildCell P db viewer ek c site).map
    BundleCell.altered := by
  unfold buildCell
  have hent : c.altered.entity_id.bind db.altered.getEntityById = (c.entity_id.bind db.getEntityById).map
      Entity.altered := by
    show c.entity_id.bind _ = _
    cases c.entity_id <;> rfl
  rw [hent, buildSmartUrl_altered]
  cases c.entity_id.bind db.getEntityById with
  | none =>
    dsimp only
    rw [Option.map_none, Option.map_map, Option.map_map]
    rfl
  | some ent =>
    rw [Option.map_some]
    dsimp only
    rw [Option.map_map, Option.map_map]
    refine congrArg (Option.map · _) (funext fun u => ?_)
    have hoptions : (if ent.altered.input_options_json ≠ [] then ent.altered.input_options_json
      else c.altered.input_options_json) =
        (if ent.input_options_json ≠ [] then ent.input_options_json else c.input_options_json).map
            Json.alteredMember := by
      by_cases h : ent.input_options_json = [] <;> simp [Entity.altered, LayoutCell.altered, h]
    simp only [Function.comp_apply, hoptions]
    rfl

/-! ### Altered layouts -/

theorem gridSize_altered {edge : LayoutCell → Int} {cells : List LayoutCell}
    (h : ∀ c, edge c.altered = edge c) :
    gridSize edge (cells.map LayoutCell.altered) = gridSize edge cells := by
  unfold gridSize
  rw [List.foldl_map]
  simp only [h]

theorem fullScreen_altered {viewer : Bool} {l : Layout} {ent : Entity} {cell : BundleCell} :
    fullScreen viewer l.altered ent.altered cell.altered = (fullScreen viewer l ent cell).altered := by
  have hoptions : (cell.altered.input_options.getD []).filter (fun m => m.1 ≠ "events") =
      ((cell.input_options.getD []).filter fun m => m.1 ≠ "events").map Json.alteredMember := by
    show ((cell.input_options.map _).getD []).filter _ = _
    cases cell.input_options with
    | none => rfl
    | some r =>
      rw [Option.map_some, Option.getD_some, Option.getD_some, List.filter_map]
      rfl
  unfold fullScreen
  rw [hoptions]
  cases viewer <;> rfl

theorem operatorLayout_altered {viewer : Bool} {ent : Entity} :
    operatorLayout P db.altered viewer ent.altered = (operatorLayout P db viewer ent).altered := by
  cases viewer <;> rfl

def Built.altered (b : Built) : Built := (b.1.altered, b.2.map fun c => (c.1.altered, c.2.altered))

theorem buildLayout_altered {viewer : Bool} {ek : Option String} {l : Layout} {site : Nat → Nat → Site} :
    buildLayout P db.altered viewer ek l.altered site = (buildLayout P db viewer ek l site).map
    Built.altered := by
  have hcells := mapM_zipIdx_eq (l := db.layoutCells l.id) (g := LayoutCell.altered)
    (h := fun c : LayoutCell × BundleCell => (c.1.altered, c.2.altered))
    (fun c i => (buildCell P db viewer ek c (site i)).map fun cell => (c, cell))
    (fun c i => (buildCell P db.altered viewer ek c (site i)).map fun cell => (c, cell)) fun c i => by
      rw [buildCell_altered, Option.map_map, Option.map_map]
      rfl
  show Option.map _ (((db.layoutCells l.id).map LayoutCell.altered).zipIdx.mapM _) = Option.map _
    (Option.map _ _)
  rw [hcells, Option.map_map, Option.map_map]
  rfl

theorem realLayout_altered {viewer : Bool} {defaultLayoutId : Option String} {b : Built} :
    realLayout viewer defaultLayoutId (Built.altered b) = (realLayout viewer defaultLayoutId b).altered := by
  have hrows : (Built.altered b).2.map Prod.fst = (b.2.map Prod.fst).map LayoutCell.altered := by
    simp [Built.altered, Function.comp_def]
  have hcells : (Built.altered b).2.map Prod.snd = (b.2.map Prod.snd).map BundleCell.altered := by
    simp [Built.altered, Function.comp_def]
  unfold realLayout
  rw [hrows, hcells, gridSize_altered fun _ => rfl, gridSize_altered fun _ => rfl]
  cases viewer <;> rfl

def alteredEntry (v : String × BundleLayout) : String × BundleLayout := (v.1, v.2.altered)

theorem alteredEntry_keys {vs : List (String × BundleLayout)} :
    (vs.map alteredEntry).map Prod.fst = vs.map Prod.fst := by
  rw [List.map_map]
  rfl

theorem addFullScreen_altered {viewer : Bool} {l : Layout} {vs : List (String × BundleLayout)}
    {c : LayoutCell × BundleCell} :
    addFullScreen db.altered viewer l.altered (vs.map alteredEntry) (c.1.altered, c.2.altered) =
      (addFullScreen db viewer l vs c).map alteredEntry := by
  unfold addFullScreen
  rw [alteredEntry_keys]
  have hentity : c.1.altered.entity_id = c.1.entity_id := rfl
  rw [hentity]
  cases c.1.entity_id with
  | none => rfl
  | some entityId =>
    dsimp only
    split
    · rfl
    · have hent : db.altered.getEntityById entityId = (db.getEntityById entityId).map Entity.altered := rfl
      rw [hent]
      cases db.getEntityById entityId with
      | none => rfl
      | some ent =>
        rw [Option.map_some, List.map_append, List.map_singleton]
        dsimp only
        rw [fullScreen_altered]
        rfl

theorem addOperator_altered {viewer : Bool} {vs : List (String × BundleLayout)} {ent : Entity} :
    addOperator P db.altered viewer
    (vs.map alteredEntry) ent.altered = (addOperator P db viewer vs ent).map alteredEntry := by
  unfold addOperator
  rw [alteredEntry_keys, operatorLayout_altered, Entity.altered_id]
  by_cases h : ent.id ∈ vs.map Prod.fst
  · rw [if_pos h, if_pos h]
  · rw [if_neg h, if_neg h, List.map_append, List.map_singleton]
    rfl

theorem foldl_altered {f : List β → α → List β} {f' : List β → γ → List β} (g : α → γ) {e : β → β}
    (l : List α) (hf : ∀ acc a, f' (acc.map e) (g a) = (f acc a).map e) (acc : List β) :
    (l.map g).foldl f' (acc.map e) = (l.foldl f acc).map e := by
  induction l generalizing acc with
  | nil => rfl
  | cons a l ih => rw [List.map_cons, List.foldl_cons, List.foldl_cons, hf, ih]

theorem virtualLayouts_altered {viewer : Bool} {operatorContent : List Entity} {built : List Built} :
    virtualLayouts P db.altered viewer (operatorContent.map Entity.altered) (built.map Built.altered) =
      (virtualLayouts P db viewer operatorContent built).map alteredEntry := by
  have hcells (acc : List (String × BundleLayout)) (b : Built) :
      b.altered.2.foldl (addFullScreen db.altered viewer b.altered.1) (acc.map alteredEntry) =
        (b.2.foldl (addFullScreen db viewer b.1) acc).map alteredEntry :=
    foldl_altered (fun c : LayoutCell × BundleCell => (c.1.altered, c.2.altered)) b.2
      (fun _ _ => addFullScreen_altered) acc
  have hscreens : (built.map Built.altered).foldl (fun acc b =>
    b.2.foldl (addFullScreen db.altered viewer b.1) acc) [] =
      (built.foldl (fun acc b => b.2.foldl (addFullScreen db viewer b.1) acc) []).map alteredEntry :=
    foldl_altered Built.altered built hcells []
  unfold virtualLayouts
  rw [hscreens]
  exact foldl_altered Entity.altered operatorContent (fun _ _ => addOperator_altered) _

theorem withVirtual_altered {real : List BundleLayout} {vs : List (String × BundleLayout)} :
    withVirtual (real.map BundleLayout.altered)
    (vs.map alteredEntry) = (withVirtual real vs).map BundleLayout.altered := by
  have hids : (real.map BundleLayout.altered).map BundleLayout.id = real.map BundleLayout.id := by
    rw [List.map_map]
    rfl
  unfold withVirtual
  rw [hids, List.filter_map, List.map_map, List.map_append, List.map_map]
  rfl

theorem filter_altered {o : Option Json} :
    ((o.map Json.altered).filter fun c => isTrue c) = (o.filter fun c => isTrue c).map Json.altered := by
  cases o with
  | none => rfl
  | some j =>
    rw [Option.map_some, Option.filter_some, Option.filter_some, isTrue_altered]
    cases isTrue j <;> rfl

/-- What a viewer gets of the options is made of an action and a layout id. -/
theorem viewerInputOptions_reads {options : Option Record} {ids : List String} :
    viewerInputOptions (options.map (List.map Json.alteredMember)) ids = viewerInputOptions options ids := by
  have hevents : ((options.map (List.map Json.alteredMember)).bind fun o => (Json.obj o).get? "events") =
      (options.bind fun o => (Json.obj o).get? "events").map Json.altered := by
    cases options with
    | none => rfl
    | some o => exact Json.get?_alteredMembers (by simp [hidden])
  unfold viewerInputOptions
  rw [hevents, Json.bind_get?_altered (by simp [hidden]), filter_altered, Option.map_map]
  refine congrArg (Option.map · _) (funext fun click => ?_)
  rw [Function.comp_apply, Json.get?_altered (by simp [hidden]), Json.get?_altered (by simp [hidden]),
    Json.bind_get?_altered (by simp [hidden]), Json.stringOf_orElse_altered]
  dsimp only
  split
  · rfl
  · cases (click.get? "params").bind (Json.get? "layout_id") with
    | none => rfl
    | some id =>
      cases id with
      | arr => rw [Option.map_some, Json.altered_arr]
      | obj => rw [Option.map_some, Json.altered_obj]
      | _ => rfl

theorem clickOf_altered {params : Record} {action : String} (h : params.map Json.alteredMember = params) :
    List.map Json.alteredMember
        [("events", .obj [("click", .obj [("action", .str action), ("params", .obj params)])])] =
      [("events", .obj [("click", .obj [("action", .str action), ("params", .obj params)])])] := by
  simp [Json.alteredMember, hidden, h, Json.altered]

theorem viewerInputOptions_plain {options : Option Record} {ids : List String} :
    (viewerInputOptions options ids).map (List.map Json.alteredMember) = viewerInputOptions options ids := by
  unfold viewerInputOptions
  rw [Option.map_map]
  refine congrArg (Option.map · _) (funext fun click => ?_)
  have hid (id : String) : List.map Json.alteredMember [("layout_id", .str id)] =
      [("layout_id", .str id)] := by
    simp [Json.alteredMember, hidden, Json.altered]
  rw [Function.comp_apply]
  dsimp only
  split
  · exact clickOf_altered rfl
  split
  · split
    · exact clickOf_altered (hid _)
    · exact clickOf_altered rfl
  · split
    · exact clickOf_altered (hid _)
    · exact clickOf_altered rfl
  · exact clickOf_altered rfl

theorem viewerLayout_altered {ids : List String} {l : BundleLayout} :
    viewerLayout ids l.altered = (viewerLayout ids l).altered := by
  have hcell (c : BundleCell) :
    ({ c.altered with input_options := viewerInputOptions c.altered.input_options ids } : BundleCell) =
      ({ c with input_options := viewerInputOptions c.input_options ids } : BundleCell).altered := by
    have hoptions : viewerInputOptions (c.input_options.map (List.map Json.alteredMember)) ids =
        (viewerInputOptions c.input_options ids).map (List.map Json.alteredMember) :=
      viewerInputOptions_reads.trans viewerInputOptions_plain.symm
    exact congrArg (fun options => ({ c.altered with input_options := options } : BundleCell)) hoptions
  show ({ l with cells := (l.cells.map BundleCell.altered).map _, input_options := none } : BundleLayout) =
    { l with cells := (l.cells.map _).map BundleCell.altered, input_options := none }
  rw [List.map_map, List.map_map]
  refine congrArg (fun cells => ({ l with cells := cells, input_options := none } : BundleLayout)) ?_
  exact List.map_congr_left fun c _ => hcell c

theorem buildLayouts_altered {viewer : Bool} {ek : Option String} {operatorContent : List Entity}
    {displayId : String} {defaultLayoutId : Option String} {site : Nat → Nat → Nat → Site} :
    buildLayouts P db.altered viewer ek (operatorContent.map Entity.altered) displayId defaultLayoutId site =
      (buildLayouts P db viewer ek operatorContent displayId defaultLayoutId site).map
      (List.map BundleLayout.altered) := by
  have hbuilt := mapM_zipIdx_eq (l := db.layoutsForDisplayId displayId) (g := Layout.altered)
    (h := Built.altered)
    (fun l i => buildLayout P db viewer ek l (site i))
      (fun l i => buildLayout P db.altered viewer ek l (site i))
    fun _ _ => buildLayout_altered
  show Option.map _ (((db.layoutsForDisplayId displayId).map Layout.altered).zipIdx.mapM _) =
    Option.map _ (Option.map _ _)
  rw [hbuilt, Option.map_map, Option.map_map]
  refine congrArg (Option.map · _) (funext fun built => ?_)
  have hreal : (built.map Built.altered).map (realLayout viewer defaultLayoutId) =
      (built.map (realLayout viewer defaultLayoutId)).map BundleLayout.altered := by
    rw [List.map_map, List.map_map]
    exact List.map_congr_left fun b _ => realLayout_altered
  simp only [Function.comp_apply, hreal, virtualLayouts_altered, withVirtual_altered]
  split
  · rw [List.map_map, List.map_map, List.map_map]
    exact List.map_congr_left fun l _ => viewerLayout_altered
  · rfl

theorem buildDisplay_altered {viewer : Bool} {ek : Option String} {operatorContent : List Entity}
    {kioskName : String} {d : Display} {site : Nat → Nat → Nat → Site} :
    buildDisplay P db.altered viewer ek (operatorContent.map Entity.altered) kioskName d site =
      (buildDisplay P db viewer ek operatorContent kioskName d site).map BundleDisplay.altered := by
  unfold buildDisplay
  rw [buildLayouts_altered, Option.map_map, Option.map_map]
  rfl

/-! ### Altered cameras -/

theorem setCamera_altered {cs : List Camera} {c : Camera} :
    setCamera (cs.map Camera.altered) c.altered = (setCamera cs c).map Camera.altered := by
  have hany : ((cs.map Camera.altered).any fun x => x.id = c.altered.id) = cs.any fun x => x.id = c.id := by
    rw [List.any_map]
    rfl
  unfold setCamera
  rw [hany]
  split
  · rw [List.map_map, List.map_map]
    refine List.map_congr_left fun x _ => ?_
    show (if x.id = c.id then c.altered else x.altered) = Camera.altered (if x.id = c.id then c else x)
    split <;> rfl
  · rw [List.map_append, List.map_singleton]

theorem sortByName_altered {cs : List Camera} :
    sortByName P (cs.map Camera.altered) = (sortByName P cs).map Camera.altered :=
  (List.map_insertionSort _ _ Camera.altered cs fun _ _ _ _ => Iff.rfl).symm

theorem kioskCameras_altered {kioskId : String} {displays : List Display} :
    kioskCameras P db.altered kioskId displays = (kioskCameras P db kioskId displays).map Camera.altered := by
  have hids (d : Display) :
      (db.altered.layoutsForDisplayId d.id).map Layout.id = (db.layoutsForDisplayId d.id).map
      Layout.id :=
    List.map_map
  unfold kioskCameras
  simp only [hids]
  rw [← sortByName_altered]
  refine congrArg (sortByName P) ?_
  show ((db.camerasForLayoutIds _).map Camera.altered ++
    (operateCameras db kioskId).map Camera.altered).foldl setCamera _ = _
  rw [← List.map_append]
  exact foldl_altered Camera.altered _ (fun _ _ => setCamera_altered) []

theorem viewerCameras_altered {displays : List BundleDisplay} :
    viewerCameras P db.altered
    (displays.map BundleDisplay.altered) = (viewerCameras P db displays).map Camera.altered := by
  unfold viewerCameras
  rw [← sortByName_altered, List.flatMap_map]
  refine congrArg (sortByName P) ?_
  have hcell (l : BundleLayout) : (l.altered.cells.flatMap fun c =>
        if c.content_type = "camera" then (truthy c.camera_id).toList else []) =
      l.cells.flatMap fun c => if c.content_type = "camera" then (truthy c.camera_id).toList else [] :=
    List.flatMap_map ..
  have hlayout (d : BundleDisplay) : (d.altered.layouts.flatMap fun l => l.cells.flatMap fun c =>
        if c.content_type = "camera" then (truthy c.camera_id).toList else []) =
      d.layouts.flatMap fun l => l.cells.flatMap fun c =>
        if c.content_type = "camera" then (truthy c.camera_id).toList else [] :=
    (List.flatMap_map ..).trans (List.flatMap_congr fun l _ => hcell l)
  simp only [hlayout]
  show List.filter _ (List.filterMap (fun id => (db.getCameraById id).map Camera.altered) _) = _
  rw [← List.map_filterMap, List.filter_map]
  rfl

theorem buildCamera_altered {draws : Draws Iv} {kioskId : String} {viewer : Bool} {ek : Option String}
    {cam : Camera} {position : Nat} :
    buildCamera P db.altered draws kioskId viewer ek cam.altered position =
      (buildCamera P db draws kioskId viewer ek cam position).map BundleCamera.altered := by
  have hmanaged : ((if viewer then [] else operateCameras db.altered kioskId).any fun c =>
    c.id = cam.altered.id) =
      (if viewer then [] else operateCameras db kioskId).any fun c => c.id = cam.id := by
    cases viewer with
    | true => rfl
    | false => exact List.any_map
  have hconfig : (if viewer then [] else cam.altered.recording_config_json) =
      (if viewer then [] else cam.recording_config_json).map Json.alteredMember := by
    cases viewer <;> rfl
  unfold buildCamera
  rw [hmanaged, hconfig]
  show Option.bind (sealPassword P _ ek _ _) (fun onvif => Option.bind (sealPassword P _ ek _ _) _) =
    Option.map _ (Option.bind (sealPassword P _ ek _ _) fun onvif => Option.bind (sealPassword P _ ek _ _) _)
  rw [Option.map_bind]
  refine congrArg (Option.bind _) (funext fun onvif => ?_)
  rw [Function.comp_apply, Option.map_bind]
  rfl

/-- The members of an object. -/
def objectMembers : Json → Record
  | .obj ms => ms
  | _ => []

theorem objectMembers_altered {j : Json} :
    objectMembers j.altered = (objectMembers j).map Json.alteredMember := by
  cases j with
  | arr => rw [Json.altered_arr]; rfl
  | obj => rw [Json.altered_obj]; rfl
  | _ => rfl

theorem parseJsonObject_some {raw : String} {j : Json} (h : Json.parse raw = some j) :
    parseJsonObject (some raw) = objectMembers j := by
  have hraw : raw ≠ "" := by
    rintro rfl
    cases h
  unfold parseJsonObject
  rw [truthy_eq_some.2 ⟨rfl, hraw⟩, Option.bind_some, h]
  cases j <;> rfl

theorem parseJsonObject_none {raw : String} (h : Json.parse raw = none) :
    parseJsonObject (some raw) = [] := by
  unfold parseJsonObject
  by_cases hraw : raw = ""
  · subst hraw
    rfl
  · rw [truthy_eq_some.2 ⟨rfl, hraw⟩, Option.bind_some, h]

theorem parseJsonObject_altered {k : Kiosk} :
    parseJsonObject k.altered.simple_vms_settings_json = (parseJsonObject k.simple_vms_settings_json).map
    Json.alteredMember := by
  unfold Kiosk.altered
  dsimp only
  cases k.simple_vms_settings_json with
  | none => rfl
  | some raw =>
    rw [Option.map_some]
    cases hparse : Json.parse raw with
    | none =>
      dsimp only
      rw [parseJsonObject_none hparse]
      rfl
    | some j =>
      dsimp only
      rw [parseJsonObject_some hparse, parseJsonObject_some (Json.parse_stringify _), objectMembers_altered]

/-- `generateBundle` assembles the altered bundle from the altered rows. -/
theorem assemble_altered {c : Call Iv} {kioskId : String} :
    assemble P { c with db := c.db.altered } kioskId = (assemble P c kioskId).map
    (Option.map KioskBundle.altered) := by
  have hkiosk : c.db.altered.getKioskById kioskId = (c.db.getKioskById kioskId).map Kiosk.altered := rfl
  unfold assemble
  dsimp only
  rw [hkiosk]
  cases c.db.getKioskById kioskId with
  | none => rfl
  | some kiosk =>
    rw [Option.map_some]
    dsimp only
    have hdisplays (v : Bool) :
        enabledDisplays c.db.altered kioskId kiosk.altered v = enabledDisplays c.db kioskId kiosk v :=
      rfl
    have hcontent : (c.db.altered.listEntities.filter fun e => e.type ≠ "camera") =
        (c.db.listEntities.filter fun e => e.type ≠ "camera").map Entity.altered := List.filter_map
    have hgpio : c.db.altered.listGpioBindings = c.db.listGpioBindings := rfl
    -- the fields that a condition reads are rewritten where the condition's decision is rewritten with it
    have hcapabilities : kiosk.altered.capabilities = kiosk.capabilities := rfl
    have hkey : kiosk.altered.encrypt_key_encrypted = kiosk.encrypt_key_encrypted := rfl
    have henabled : kiosk.altered.operator_console_enabled = kiosk.operator_console_enabled := rfl
    simp only [hcapabilities, hkey, henabled, hdisplays, hcontent, parseJsonObject_altered, hgpio]
    simp only [Kiosk.altered]
    generalize decide ("android-viewer" ∈ kiosk.capabilities) = viewer
    generalize enabledDisplays c.db kioskId kiosk viewer = displays
    generalize ((truthy kiosk.encrypt_key_encrypted).bind fun x => P.decryptString x "kiosk-encrypt") =
      kioskEncryptKey
    by_cases hnone : displays = []
    · rw [if_pos hnone, if_pos hnone]
      rfl
    rw [if_neg hnone, if_neg hnone]
    by_cases hkey : (viewer && (truthy kioskEncryptKey).isNone) = true
    · rw [if_pos hkey, if_pos hkey]
      rfl
    rw [if_neg hkey, if_neg hkey]
    generalize truthy (kioskEncryptKey.or c.clusterKey) = ek
    have hoperator : (if (!viewer && kiosk.operator_console_enabled) = true then
          (c.db.listEntities.filter fun e => e.type ≠ "camera").map Entity.altered else []) =
        (if (!viewer && kiosk.operator_console_enabled) = true then
          c.db.listEntities.filter fun e => e.type ≠ "camera" else []).map Entity.altered := by
      split <;> rfl
    rw [hoperator]
    generalize (if (!viewer && kiosk.operator_console_enabled) = true then
      c.db.listEntities.filter fun e => e.type ≠ "camera" else []) = operatorContent
    have hbuilt : (displays.zipIdx.mapM fun x =>
      buildDisplay P c.db.altered viewer ek (operatorContent.map Entity.altered)
          kiosk.name x.1 (Site.step x.2)) =
        (displays.zipIdx.mapM fun x =>
          buildDisplay P c.db viewer ek operatorContent kiosk.name x.1 (Site.step x.2)).map
          (List.map BundleDisplay.altered) :=
      mapM_eq_map fun _ => buildDisplay_altered
    rw [hbuilt]
    show Option.bind (Option.map _ _) _ = Option.map _ (Option.bind _ _)
    rw [Option.bind_map, Option.map_bind]
    refine congrArg (Option.bind _) (funext fun bundleDisplays => ?_)
    rw [Function.comp_apply, Function.comp_apply]
    have hcameras : (if viewer then viewerCameras P c.db.altered (bundleDisplays.map BundleDisplay.altered)
          else kioskCameras P c.db.altered kioskId displays) =
        (if viewer then viewerCameras P c.db bundleDisplays
              else kioskCameras P c.db kioskId displays).map Camera.altered := by
      cases viewer
      · exact kioskCameras_altered
      · exact viewerCameras_altered
    rw [hcameras]
    generalize (if viewer then viewerCameras P c.db bundleDisplays
      else kioskCameras P c.db kioskId displays) = cameras
    rw [mapM_zipIdx_eq (buildCamera P c.db c.draws kioskId viewer ek) _ fun _ _ => buildCamera_altered]
    show Option.bind (Option.map _ _) _ = Option.map _ (Option.bind _ _)
    rw [Option.bind_map, Option.map_bind]
    refine congrArg (Option.bind _) (funext fun bundleCameras => ?_)
    rw [Function.comp_apply, Function.comp_apply, List.head?_map]
    cases bundleDisplays.head? with
    | none => rfl
    | some primary => cases viewer <;> rfl

/-! ### Altered bundles as JSON -/

@[simp] theorem altered_str {s : String} : (Doc.str s : Doc Secret).altered = .str s := rfl

@[simp] theorem altered_bool {b : Bool} : (Doc.bool b : Doc Secret).altered = .bool b := rfl

@[simp] theorem altered_int {n : Int} : (int n).altered = int n := by cases n <;> rfl

@[simp] theorem altered_texts {ss : List String} : (texts ss).altered = texts ss := by
  rw [texts, Doc.altered_arr, List.map_map]
  rfl

theorem record_altered {r : Record} : record (r.map Json.alteredMember) = (record r).altered := by
  rw [record, record, ← Json.altered_obj, Doc.altered_ofJson]

@[simp] theorem altered_orNull {f : α → Doc Secret} {o : Option α} :
    (orNull f o).altered = orNull (fun a => (f a).altered) o := by cases o <;> rfl

theorem altered_object {ms : List (String × Option (Doc Secret))} (h : ∀ m ∈ ms, hidden m.1 = false) :
    (Doc.object ms).map Doc.alteredMember = Doc.object (ms.map fun m => (m.1, m.2.map Doc.altered)) := by
  unfold Doc.object
  rw [List.map_filterMap, List.filterMap_map]
  refine List.filterMap_congr fun m hm => ?_
  rw [Function.comp_apply, Option.map_map, Option.map_map]
  refine congrArg (Option.map · m.2) (funext fun d => ?_)
  show Doc.alteredMember (m.1, d) = (m.1, d.altered)
  rw [Doc.alteredMember, h m hm]
  rfl

theorem SmartUrl.altered_doc {u : SmartUrl} : u.altered.doc = u.doc.altered := by
  have hjson (o : Option Json) :
      (o.map Json.altered).map (Doc.ofJson : Json → Doc Secret) = (o.map Doc.ofJson).map
      Doc.altered := by
    cases o with
    | none => rfl
    | some j => exact congrArg some Doc.altered_ofJson
  have hsteps : Doc.arr ((u.steps.map (List.map Doc.alteredMember)).map .obj) =
      (Doc.arr (u.steps.map .obj)).altered := by
    rw [Doc.altered_arr, List.map_map, List.map_map]
    exact congrArg Doc.arr (List.map_congr_left fun step _ => Doc.altered_obj.symm)
  unfold SmartUrl.doc SmartUrl.altered
  rw [Doc.altered_obj, altered_object (by simp [hidden]), hsteps, hjson, hjson]
  rfl

theorem LocalStorage.altered_doc {s : LocalStorage} : s.doc.altered = s.doc := by
  unfold LocalStorage.doc
  rw [Doc.altered_obj, altered_object (by simp [hidden])]
  cases s.screenToken <;> rfl

theorem BundleCell.altered_doc {c : BundleCell} : c.altered.doc = c.doc.altered := by
  have hurl : (c.smart_url.map SmartUrl.altered).map SmartUrl.doc = (c.smart_url.map SmartUrl.doc).map
      Doc.altered := by
    rw [Option.map_map, Option.map_map]
    exact congrArg (Option.map · _) (funext fun u => SmartUrl.altered_doc)
  have hoptions : (c.input_options.map (List.map Json.alteredMember)).map record =
      (c.input_options.map record).map Doc.altered := by
    rw [Option.map_map, Option.map_map]
    exact congrArg (Option.map · _) (funext fun r => record_altered)
  have hstorage : (c.local_storage.map LocalStorage.doc).map Doc.altered = c.local_storage.map
      LocalStorage.doc := by
    rw [Option.map_map]
    exact congrArg (Option.map · _) (funext fun s => LocalStorage.altered_doc)
  unfold BundleCell.doc BundleCell.altered
  rw [Doc.altered_obj, altered_object (by simp [hidden])]
  simp [hurl, hoptions, hstorage]

theorem map_altered_doc {f : α → α} {doc : α → Doc Secret} (h : ∀ a, doc (f a) = (doc a).altered)
    {l : List α} :
    Doc.arr ((l.map f).map doc) = (Doc.arr (l.map doc)).altered := by
  rw [Doc.altered_arr, List.map_map, List.map_map]
  exact congrArg Doc.arr (List.map_congr_left fun a _ => h a)

theorem BundleLayout.altered_doc {l : BundleLayout} : l.altered.doc = l.doc.altered := by
  have hoptions : (l.input_options.map (List.map Json.alteredMember)).map record =
      (l.input_options.map record).map Doc.altered := by
    rw [Option.map_map, Option.map_map]
    exact congrArg (Option.map · _) (funext fun r => record_altered)
  have hcells := map_altered_doc (fun c => BundleCell.altered_doc (c := c)) (l := l.cells)
  have hkey : (l.local_short_key.map Doc.str).map (Doc.altered : Doc Secret → Doc Secret) =
      l.local_short_key.map .str := by
    cases l.local_short_key <;> rfl
  unfold BundleLayout.doc BundleLayout.altered
  rw [Doc.altered_obj, altered_object (by simp [hidden])]
  simp only [hoptions, hcells, List.map_cons, List.map_nil, Option.map_some, altered_str,
    altered_int, altered_orNull, altered_texts, altered_bool, hkey]

theorem layoutsDoc_altered {ls : List BundleLayout} :
    layoutsDoc (ls.map BundleLayout.altered) = (layoutsDoc ls).altered :=
  map_altered_doc fun _ => BundleLayout.altered_doc

theorem BundleDisplay.altered_fields {d : BundleDisplay} :
    d.fields.map (fun m => (m.1, m.2.map Doc.altered)) = d.fields := by
  simp only [fields, List.map_cons, List.map_nil, Option.map_some, altered_str, altered_int, altered_orNull]

theorem BundleDisplay.fields_ne {d : BundleDisplay} : ∀ m ∈ d.fields, hidden m.1 = false := by
  simp [fields, hidden]

theorem BundleDisplay.altered_doc {d : BundleDisplay} : d.altered.doc = d.doc.altered := by
  unfold BundleDisplay.doc
  rw [Doc.altered_obj, altered_object (List.forall_mem_append.2 ⟨fields_ne, by simp [hidden]⟩),
    List.map_append, altered_fields]
  simp only [List.map_cons, List.map_nil, Option.map_some, ← layoutsDoc_altered]
  rfl

theorem streamDoc_altered {s : CameraStream} : (streamDoc s).altered = streamDoc s := by
  unfold streamDoc
  rw [Doc.altered_obj, altered_object (by simp [hidden])]
  simp only [List.map_cons, List.map_nil, Option.map_some, altered_str, altered_int, altered_orNull]
  rfl

theorem gpioDoc_altered {g : GpioBinding} : (gpioDoc g).altered = gpioDoc g := by
  unfold gpioDoc
  rw [Doc.altered_obj, altered_object (by simp [hidden])]
  simp only [List.map_cons, List.map_nil, Option.map_some, altered_str, altered_int, altered_orNull]

theorem BundleCamera.altered_doc {c : BundleCamera} : c.altered.doc = c.doc.altered := by
  have hstreams : (Doc.arr (c.streams.map streamDoc)).altered = Doc.arr (c.streams.map streamDoc) := by
    rw [Doc.altered_arr, List.map_map]
    exact congrArg Doc.arr (List.map_congr_left fun s _ => streamDoc_altered)
  have hkey : (c.local_short_key.map Doc.str).map (Doc.altered : Doc Secret → Doc Secret) =
      c.local_short_key.map .str := by
    cases c.local_short_key <;> rfl
  unfold BundleCamera.doc BundleCamera.altered
  rw [Doc.altered_obj, altered_object (by simp [hidden])]
  simp only [record_altered, List.map_cons, List.map_nil, Option.map_some, altered_str, altered_int,
    altered_orNull, altered_texts, altered_bool, hkey, hstreams]
  rfl

theorem operatorConsoleDoc_altered {b : KioskBundle} :
    operatorConsoleDoc b.altered = (operatorConsoleDoc b).altered := by
  have htools : (Doc.arr (b.operator_tools.map fun t =>
    Doc.obj [("label", .str t.1), ("url", .str t.2)])).altered =
      Doc.arr (b.operator_tools.map fun t =>
            Doc.obj [("label", (.str t.1 : Doc Secret)), ("url", .str t.2)]) := by
    rw [Doc.altered_arr, List.map_map]
    refine congrArg Doc.arr (List.map_congr_left fun t _ => ?_)
    rw [Function.comp_apply, Doc.altered_obj]
    simp [Doc.alteredMember, hidden]
  unfold operatorConsoleDoc
  rw [Doc.altered_obj, altered_object (by simp [hidden])]
  simp only [List.map_cons, List.map_nil, Option.map_some, Doc.altered_obj, altered_bool,
    altered_int, altered_orNull, altered_str, htools]
  rw [altered_object (by simp [hidden])]
  simp only [KioskBundle.altered, List.map_cons, List.map_nil, Option.map_some, record_altered,
    altered_bool, altered_orNull, altered_str]

theorem KioskBundle.altered_content {b : KioskBundle} :
    (Doc.obj b.altered.content) = (Doc.obj b.content).altered := by
  have hdisplays := map_altered_doc (fun d => BundleDisplay.altered_doc (d := d)) (l := b.displays)
  have hcameras := map_altered_doc (fun c => BundleCamera.altered_doc (c := c)) (l := b.cameras)
  have hgpio : (Doc.arr (b.gpio_bindings.map gpioDoc)).altered = Doc.arr (b.gpio_bindings.map gpioDoc) := by
    rw [Doc.altered_arr, List.map_map]
    exact congrArg Doc.arr (List.map_congr_left fun g _ => gpioDoc_altered)
  have hdisplay : (Doc.obj (Doc.object b.display.fields)).altered = Doc.obj
      (Doc.object b.display.fields) := by
    rw [Doc.altered_obj, altered_object BundleDisplay.fields_ne, BundleDisplay.altered_fields]
  unfold content
  rw [Doc.altered_obj, altered_object (by simp [hidden]), operatorConsoleDoc_altered]
  simp only [KioskBundle.altered, hdisplays, hcameras, hgpio, hdisplay, List.map_cons, List.map_nil,
    Option.map_some, ← layoutsDoc_altered, altered_str]
  rfl

end Bundle
