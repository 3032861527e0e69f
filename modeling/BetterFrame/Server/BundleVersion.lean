import BetterFrame.Server.Bundle

/-!
# What the version of a bundle says

The copy that is hashed blanks every member `version` and drops every member `__proto__`, at any depth. Where
the JSON that an administrator stores has neither, the copy is the bundle with a fingerprint for every secret,
and two bundles with one copy tell the kiosk the same.
-/

namespace Bundle

variable {Iv : Type} {P : Platform Iv}

/-! ### Documents -/

/-- What stands under such a name is not in the copy. -/
def hidden (k : String) : Bool := k = "version" || k = "__proto__"

/-- The document with every member `version` blanked and every member `__proto__` dropped, at any depth. -/
def blank : Doc Secret → Doc Secret := Doc.run
  { leaf := fun d => d
    arr := fun xs => .arr (xs.map Prod.snd)
    obj := fun ms => .obj ((ms.filter fun m => m.1 ≠ "__proto__").map fun m =>
      (m.1, if m.1 = "version" then .str "" else m.2.2)) }

/-- Every hole is the value of a member that is fingerprinted, and good; every other string under
the name of such a member is clear. -/
def Legible (good : Secret → Prop) (clear : String → Prop) : Doc Secret → Prop := Doc.run
  { leaf := fun
      | .hole _ => False
      | _ => True
    arr := fun xs => ∀ x ∈ xs, x.2
    obj := fun ms => ∀ m ∈ ms,
      match m.2.1 with
      | .hole a => isEncryptedKey m.1 ∧ good a
      | .str t => isEncryptedKey m.1 → clear t
      | _ => m.2.2 }

/-- What `Legible` asks of one member. -/
def LegibleMember (good : Secret → Prop) (clear : String → Prop) (k : String) : Doc Secret → Prop
  | .hole a => isEncryptedKey k ∧ good a
  | .str t => isEncryptedKey k → clear t
  | v => Legible good clear v

/-- The strings that stand under the name of a member that is fingerprinted. -/
def encryptedStrings : Doc Secret → List String := Doc.run
  { leaf := fun _ => []
    arr := fun xs => xs.flatMap Prod.snd
    obj := fun ms => ms.flatMap fun m =>
      match m.2.1 with
      | .str t => if isEncryptedKey m.1 then [t] else []
      | _ => m.2.2 }

section
variable {good good' : Secret → Prop} {clear clear' : String → Prop} {xs : List (Doc Secret)}
  {ms : List (String × Doc Secret)} {d d' v v' : Doc Secret} {k : String}

@[simp] theorem blank_arr : blank (.arr xs) = .arr (xs.map blank) := by
  simp [blank, Doc.run_arr]

@[simp] theorem blank_obj :
    blank (.obj ms) = .obj ((ms.filter fun m => m.1 ≠ "__proto__").map fun m =>
      (m.1, if m.1 = "version" then .str "" else blank m.2)) := by
  rw [blank, Doc.run_obj]
  dsimp only
  rw [List.filter_map, List.map_map]
  rfl

@[simp] theorem legible_arr : Legible good clear (.arr xs) ↔ ∀ x ∈ xs, Legible good clear x := by
  rw [Legible, Doc.run_arr]
  simp only [List.forall_mem_map]

@[simp] theorem legible_obj :
    Legible good clear (.obj ms) ↔ ∀ m ∈ ms, LegibleMember good clear m.1 m.2 := by
  rw [Legible, Doc.run_obj]
  simp only [List.forall_mem_map]
  refine forall₂_congr fun m _ => ?_
  cases m.2 <;> rfl

@[simp] theorem encryptedStrings_arr : encryptedStrings (.arr xs) = xs.flatMap encryptedStrings := by
  simp [encryptedStrings, Doc.run_arr, List.flatMap_map]

/-- The strings that one member adds. -/
def memberStrings (k : String) : Doc Secret → List String
  | .str t => if isEncryptedKey k then [t] else []
  | v => encryptedStrings v

@[simp] theorem encryptedStrings_obj : encryptedStrings (.obj ms) = ms.flatMap fun m =>
    memberStrings m.1 m.2 := by
  rw [encryptedStrings, Doc.run_obj]
  dsimp only
  rw [List.flatMap_map]
  refine List.flatMap_congr fun m _ => ?_
  cases m.2 <;> rfl

/-- What is said of the holes and strings may be replaced by what is true of those that occur. -/
theorem Legible.mono : ∀ {d : Doc Secret}, Legible good clear d → (∀ a ∈ d.holes, good a → good' a) →
    (∀ t ∈ encryptedStrings d, clear t → clear' t) → Legible good' clear' d := by
  intro d
  induction d using Doc.parts with
  | leaf d harr hobj =>
    intro hd _ _
    cases d with
    | arr xs => exact absurd rfl (harr xs)
    | obj ms => exact absurd rfl (hobj ms)
    | hole => exact hd
    | _ => trivial
  | harr xs ih =>
    intro hd hg hc
    refine legible_arr.2 fun x hx =>
      ih x hx (legible_arr.1 hd x hx) (fun a ha => hg a ?_) (fun t ht => hc t ?_)
    · rw [Doc.holes_arr]
      exact List.mem_flatMap.2 ⟨x, hx, ha⟩
    · rw [encryptedStrings_arr]
      exact List.mem_flatMap.2 ⟨x, hx, ht⟩
  | hobj ms ih =>
    intro hd hg hc
    rw [Doc.holes_obj] at hg
    rw [encryptedStrings_obj] at hc
    rw [legible_obj] at hd ⊢
    rintro ⟨k, v⟩ hm
    have hd := hd _ hm
    have hg (a : Secret) (ha : a ∈ v.holes) : good a → good' a := hg a (List.mem_flatMap.2 ⟨_, hm, ha⟩)
    have hc (t : String) (ht : t ∈ memberStrings k v) : clear t → clear' t :=
      hc t (List.mem_flatMap.2 ⟨_, hm, ht⟩)
    cases v with
    | hole a => exact ⟨hd.1, hg a (by simp) hd.2⟩
    | str t => exact fun henc => hc t (by simp [memberStrings, show isEncryptedKey k from henc]) (hd henc)
    | _ => exact ih _ hm hd hg hc

theorem map_congr_map {α β γ δ : Type} {f : α → γ} {f' : β → γ} {g : α → δ} {g' : β → δ} {l : List α}
    {l' : List β}
    (h : l.map f = l'.map f') (hg : ∀ a ∈ l, ∀ b ∈ l', f a = f' b → g a = g' b) : l.map g = l'.map g' := by
  induction l generalizing l' with
  | nil =>
    cases l' with
    | nil => rfl
    | cons => cases h
  | cons a l ih =>
    cases l' with
    | nil => cases h
    | cons b l' =>
      obtain ⟨hab, hl⟩ := List.cons.inj h
      have htail := ih hl fun x hx y hy => hg x (List.mem_cons_of_mem _ hx) y (List.mem_cons_of_mem _ hy)
      rw [List.map_cons, List.map_cons, hg a (List.mem_cons_self ..) b (List.mem_cons_self ..) hab, htail]

theorem fill_ne_str {f : Secret → Json} (hv : ∀ t, v ≠ .str t) (hh : ∀ a, v ≠ .hole a) {t : String} :
    v.fill f ≠ .str t := by
  cases v with
  | str s => exact absurd rfl (hv s)
  | hole a => exact absurd rfl (hh a)
  | arr => simp
  | obj => simp
  | _ => exact nofun

/-- Two documents that give one text when fingerprints fill their holes say the same, when equal
fingerprints are of equal plaintexts and no other string is a fingerprint of the other document. -/
theorem map_eq_of_fill_eq {fp : Secret → String}
    (hfp : ∀ a b, good a → good' b → fp a = fp b → a.plaintext = b.plaintext)
    (hl : ∀ a t, good a → clear' t → fp a ≠ t) (hr : ∀ a t, good' a → clear t → fp a ≠ t) :
    ∀ (d : Doc Secret) {d' : Doc Secret}, Legible good clear d → Legible good' clear' d' →
      d.fill (fun a => .str (fp a)) = d'.fill (fun a => .str (fp a)) →
      d.map Secret.plaintext = d'.map Secret.plaintext := by
  intro d
  induction d using Doc.parts with
  | leaf d harr hobj =>
    intro d' hd hd' h
    cases d with
    | arr xs => exact absurd rfl (harr xs)
    | obj ms => exact absurd rfl (hobj ms)
    | hole => exact hd.elim
    | _ =>
      cases d' with
      | hole => exact hd'.elim
      | arr => rw [Doc.fill_arr] at h; cases h
      | obj => rw [Doc.fill_obj] at h; cases h
      | _ => cases h <;> rfl
  | harr xs ih =>
    intro d' hd hd' h
    cases d' with
    | arr ys =>
      rw [Doc.fill_arr, Doc.fill_arr] at h
      rw [Doc.map_arr, Doc.map_arr]
      refine congrArg Doc.arr (map_congr_map (Json.arr.inj h) fun x hx y hy hxy => ?_)
      exact ih x hx (legible_arr.1 hd x hx) (legible_arr.1 hd' y hy) hxy
    | hole => exact hd'.elim
    | obj => simp at h
    | _ => rw [Doc.fill_arr] at h; cases h
  | hobj ms ih =>
    intro d' hd hd' h
    cases d' with
    | obj ms' =>
      rw [Doc.fill_obj, Doc.fill_obj] at h
      rw [Doc.map_obj, Doc.map_obj]
      refine congrArg Doc.obj (map_congr_map (Json.obj.inj h) ?_)
      rintro ⟨k, v⟩ hm ⟨k', v'⟩ hm' hmm
      obtain ⟨rfl, hv⟩ := Prod.mk.inj hmm
      refine Prod.ext rfl ?_
      have hd := legible_obj.1 hd _ hm
      have hd' := legible_obj.1 hd' _ hm'
      -- a secret or a string on one side meets a secret or a string on the other
      cases v with
      | hole a =>
        cases v' with
        | hole b => exact congrArg Doc.hole (hfp a b hd.2 hd'.2 (Json.str.inj hv))
        | str t => exact absurd (Json.str.inj hv) (hl a t hd.2 (hd' hd.1))
        | _ => exact absurd hv.symm (fill_ne_str (by simp) (by simp))
      | str t =>
        cases v' with
        | hole b => exact absurd (Json.str.inj hv).symm (hr b t hd'.2 (hd hd'.1))
        | str t' => exact congrArg Doc.str (Json.str.inj hv)
        | _ => exact absurd hv.symm (fill_ne_str (by simp) (by simp))
      | _ =>
        cases v' with
        | hole b => exact absurd hv (fill_ne_str (by simp) (by simp))
        | str t => exact absurd hv (fill_ne_str (by simp) (by simp))
        | _ => exact ih _ hm hd hd' hv
    | hole => exact hd'.elim
    | arr => simp at h
    | _ => rw [Doc.fill_obj] at h; cases h

/-! ### The copy that is hashed -/

theorem stableItems_eq {get : String → Option String} {js : List Json} :
    stableItems get js = js.map (stableBundleForVersion get) := by
  induction js with
  | nil => rfl
  | cons j js ih => rw [stableItems, ih, List.map_cons]

/-- One member of the copy. -/
def stableMember (get : String → Option String) (m : String × Json) : String × Json :=
  if m.1 = "version" then (m.1, .str "")
  else
    match m.2 with
    | .str s => if isEncryptedKey m.1 then (m.1, .str ((get s).getD s)) else (m.1, .str s)
    | raw => (m.1, stableBundleForVersion get raw)

theorem stableMembers_eq {get : String → Option String} {r : Record} :
    stableMembers get r = (r.filter fun m => m.1 ≠ "__proto__").map (stableMember get) := by
  induction r with
  | nil => rfl
  | cons m r ih =>
    obtain ⟨k, v⟩ := m
    by_cases hv : k = "version"
    · cases v <;> simp [stableMembers, stableMember, hv, ih]
    by_cases hk : k = "__proto__"
    · cases v <;> simp [stableMembers, hk, ih]
    · cases v with
      | str s => by_cases henc : isEncryptedKey k <;> simp [stableMembers, stableMember, hv, hk, henc, ih]
      | _ => simp [stableMembers, stableMember, hv, hk, ih]

/-- The copy of a bundle is the blanked bundle with its fingerprints. -/
theorem stable_fill {get : String → Option String} {enc fp : Secret → String}
    (hget : ∀ a, good a → get (enc a) = some (fp a))
    (hclear : ∀ t, clear t → get t = none) :
    ∀ d : Doc Secret, Legible good clear d →
      stableBundleForVersion get (d.fill fun a => .str (enc a)) = (blank d).fill fun a => .str (fp a) := by
  intro d
  induction d using Doc.parts with
  | leaf d harr hobj =>
    intro hd
    cases d with
    | arr xs => exact absurd rfl (harr xs)
    | obj ms => exact absurd rfl (hobj ms)
    | hole => exact hd.elim
    | _ => rfl
  | harr xs ih =>
    intro hd
    rw [Doc.fill_arr, stableBundleForVersion, stableItems_eq, List.map_map, blank_arr, Doc.fill_arr,
      List.map_map]
    exact congrArg Json.arr (List.map_congr_left fun x hx => ih x hx (legible_arr.1 hd x hx))
  | hobj ms ih =>
    intro hd
    rw [legible_obj] at hd
    rw [Doc.fill_obj, stableBundleForVersion, stableMembers_eq, List.filter_map, List.map_map,
      blank_obj, Doc.fill_obj, List.map_map]
    refine congrArg Json.obj (List.map_congr_left ?_)
    rintro ⟨k, v⟩ hm
    have hm := List.mem_of_mem_filter hm
    have hd := hd _ hm
    show stableMember get (k, v.fill _) = (k, Doc.fill _ (if k = "version" then .str "" else blank v))
    unfold stableMember
    by_cases hk : k = "version"
    · rw [if_pos hk, if_pos hk]
      rfl
    rw [if_neg hk, if_neg hk]
    cases v with
    | hole a =>
      obtain ⟨henc, ha⟩ := hd
      show (if isEncryptedKey k then _ else _) = _
      rw [if_pos henc, hget a ha]
      rfl
    | str t =>
      show (if isEncryptedKey k then _ else _) = _
      split
      · next henc =>
        rw [hclear t (hd henc)]
        rfl
      · rfl
    | arr xs =>
      have h := ih _ hm hd
      rw [Doc.fill_arr] at h ⊢
      exact congrArg (Prod.mk k) h
    | obj ms =>
      have h := ih _ hm hd
      rw [Doc.fill_obj] at h ⊢
      exact congrArg (Prod.mk k) h
    | _ => exact congrArg (Prod.mk k) (ih _ hm hd)

theorem blank_of_unnamed : ∀ {d : Doc Secret}, d.names "version" = false → d.names "__proto__" = false →
    blank d = d := by
  intro d
  induction d using Doc.parts with
  | leaf d harr hobj =>
    intro _ _
    cases d with
    | arr xs => exact absurd rfl (harr xs)
    | obj ms => exact absurd rfl (hobj ms)
    | _ => rfl
  | harr xs ih =>
    intro h hp
    rw [Doc.names_arr, List.any_eq_false] at h hp
    rw [blank_arr, List.map_congr_left fun x hx => ih x hx (by simpa using h x hx) (by simpa using hp x hx),
      List.map_id']
  | hobj ms ih =>
    intro h hp
    rw [Doc.names_obj, List.any_eq_false] at h hp
    have hp (m : String × Doc Secret) (hm : m ∈ ms) : ¬ m.1 = "__proto__" ∧
        m.2.names "__proto__" = false := by
      simpa using hp m hm
    have hall : (ms.filter fun m => m.1 ≠ "__proto__") = ms := List.filter_eq_self.2 fun m hm => by
      simp [(hp m hm).1]
    rw [blank_obj, hall]
    refine congrArg Doc.obj ((List.map_congr_left fun m hm => ?_).trans (List.map_id _))
    obtain ⟨hk, hv⟩ : ¬ m.1 = "version" ∧ m.2.names "version" = false := by simpa using h m hm
    rw [if_neg hk, ih m hm hv (hp m hm).2]
    rfl

/-- Blanking a member leaves its name. -/
theorem names_blank : ∀ {d : Doc Secret}, d.names "__proto__" = false →
    (blank d).names "version" = d.names "version" := by
  intro d
  induction d using Doc.parts with
  | leaf d harr hobj =>
    intro _
    cases d with
    | arr xs => exact absurd rfl (harr xs)
    | obj ms => exact absurd rfl (hobj ms)
    | _ => rfl
  | harr xs ih =>
    intro hp
    rw [Doc.names_arr, List.any_eq_false] at hp
    rw [blank_arr, Doc.names_arr, Doc.names_arr, List.any_map]
    exact Doc.any_congr_mem fun x hx => ih x hx (by simpa using hp x hx)
  | hobj ms ih =>
    intro hp
    rw [Doc.names_obj, List.any_eq_false] at hp
    have hp (m : String × Doc Secret) (hm : m ∈ ms) : ¬ m.1 = "__proto__" ∧
        m.2.names "__proto__" = false := by
      simpa using hp m hm
    have hall : (ms.filter fun m => m.1 ≠ "__proto__") = ms := List.filter_eq_self.2 fun m hm => by
      simp [(hp m hm).1]
    rw [blank_obj, hall, Doc.names_obj, Doc.names_obj, List.any_map]
    refine Doc.any_congr_mem fun m hm => ?_
    by_cases hk : m.1 = "version" <;> simp [hk, ih m hm (hp m hm).2]

end

end Bundle
