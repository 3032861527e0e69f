import BetterFrame.Server.Pairing

/-!
# What a confirmation does

`confirmPairing_ok` says what a confirmation that returned has done: a repeated one nothing, a first
one has consumed the code, rekeyed or created one kiosk (`KioskOnly`), and stored on it the
credentials it put into the claim (`Keyed`). A confirmation that throws has done nothing
(`Transaction.transact_error`).
-/

namespace Pairing

open Text Transaction

/-- Nothing but the kiosk `id` of `schema`, and tables other than the kiosks, is different. -/
structure KioskOnly (schema id : String) (db db' : Db) : Prop where
  code : db'.pairing_code = db.pairing_code
  schemas : ∀ s, s ≠ schema → db'.schemas s = db.schemas s
  kiosks : ∀ k : Kiosk, k.id ≠ id → (k ∈ (db'.schemas schema).kiosks ↔ k ∈ (db.schemas schema).kiosks)

/-- The kiosk `id` is there, and is authenticated by `hash`. -/
def Keyed (schema id hash : String) (db : Db) : Prop :=
  (∃ k ∈ (db.schemas schema).kiosks, k.id = id) ∧ ∀ k ∈ (db.schemas schema).kiosks, k.id = id →
    k.key_hash = hash

/-- The kiosks of every schema are as they were. -/
structure SameKiosks (schema : String) (db db' : Db) : Prop where
  code : db'.pairing_code = db.pairing_code
  schemas : ∀ s, s ≠ schema → db'.schemas s = db.schemas s
  kiosks : (db'.schemas schema).kiosks = (db.schemas schema).kiosks

section Frame

variable {schema id hash : String} {db db' db'' : Db} {s s' : Session Db} {u : Unit}

theorem KioskOnly.trans (h : KioskOnly schema id db db') (h' : KioskOnly schema id db' db'') :
    KioskOnly schema id db db'' :=
  ⟨h'.code.trans h.code, fun t ht => (h'.schemas t ht).trans (h.schemas t ht),
    fun k hk => (h'.kiosks k hk).trans (h.kiosks k hk)⟩

theorem SameKiosks.refl : SameKiosks schema db db := ⟨rfl, fun _ _ => rfl, rfl⟩

theorem SameKiosks.trans (h : SameKiosks schema db db') (h' : SameKiosks schema db' db'') :
    SameKiosks schema db db'' :=
  ⟨h'.code.trans h.code, fun t ht => (h'.schemas t ht).trans (h.schemas t ht), h'.kiosks.trans h.kiosks⟩

theorem SameKiosks.only (h : SameKiosks schema db db') : KioskOnly schema id db db' :=
  ⟨h.code, h.schemas, fun _ _ => by rw [h.kiosks]⟩

theorem SameKiosks.keyed (h : SameKiosks schema db db') (hk : Keyed schema id hash db) :
    Keyed schema id hash db' := by
  unfold Keyed
  rw [h.kiosks]
  exact hk

theorem write_ok {f : Schema → Except String Schema} (h : write schema f s = .ok u s') :
    ∃ t, f (s.db.schemas schema) = .ok t ∧ s'.db.pairing_code = s.db.pairing_code ∧
      s'.db.schemas schema = t ∧ ∀ r, r ≠ schema → s'.db.schemas r = s.db.schemas r := by
  have h := exec_ok h
  rcases hf : f (s.db.schemas schema) with e | t
  · simp [hf, Except.map] at h
  · have hdb : { s.db with schemas := Function.update s.db.schemas schema t } = s'.db := by
      simpa [hf, Except.map] using h
    refine ⟨t, rfl, ?_⟩
    rw [← hdb]
    exact ⟨rfl, Function.update_self .., fun r hr => Function.update_of_ne hr ..⟩

theorem updateKiosk_ok {f : Kiosk → Kiosk} (h : updateKiosk schema id f s = .ok u s')
    (hf : ∀ k, (f k).id = k.id) :
    KioskOnly schema id s.db s'.db ∧
      (s'.db.schemas schema).kiosks = (s.db.schemas schema).kiosks.map fun k => if k.id = id then f k
      else k := by
  obtain ⟨t, ht, hcode, hs, hother⟩ := write_ok h
  obtain rfl := Except.ok.inj ht
  refine ⟨⟨hcode, hother, fun k hk => ?_⟩, by rw [hs]⟩
  rw [hs, List.mem_map]
  constructor
  · rintro ⟨a, ha, rfl⟩
    by_cases hid : a.id = id
    · rw [if_pos hid, hf] at hk
      exact absurd hid hk
    · rwa [if_neg hid]
  · exact fun ha => ⟨k, ha, if_neg hk⟩

/-- An update that keeps the key hash. -/
theorem Keyed.update {f : Kiosk → Kiosk} (hk : Keyed schema id hash s.db)
    (h : updateKiosk schema id f s = .ok u s')
    (hf : ∀ k, (f k).id = k.id) (hh : ∀ k, (f k).key_hash = k.key_hash) : Keyed schema id hash s'.db := by
  obtain ⟨-, hkiosks⟩ := updateKiosk_ok h hf
  have hkeep : ∀ k, (if k.id = id then f k else k).id = k.id ∧
      (if k.id = id then f k else k).key_hash = k.key_hash :=
    fun k => by split <;> simp [hf, hh]
  unfold Keyed
  rw [hkiosks]
  obtain ⟨⟨k, hmem, hid⟩, hall⟩ := hk
  refine ⟨⟨_, List.mem_map_of_mem hmem, by rw [(hkeep k).1, hid]⟩, fun a ha haid => ?_⟩
  obtain ⟨b, hb, rfl⟩ := List.mem_map.1 ha
  rw [(hkeep b).1] at haid
  rw [(hkeep b).2, hall b hb haid]

theorem createKiosk_ok {kiosk : Kiosk} (h : createKiosk schema kiosk s = .ok u s') :
    KioskOnly schema kiosk.id s.db s'.db ∧ Keyed schema kiosk.id kiosk.key_hash s'.db := by
  obtain ⟨t, ht, hcode, hs, hother⟩ := write_ok h
  split at ht
  · cases ht
  next hdup =>
  obtain rfl := Except.ok.inj ht
  have hfresh : ∀ k ∈ (s.db.schemas schema).kiosks, k.id ≠ kiosk.id := by
    intro k hk hid
    exact hdup (List.any_eq_true.2 ⟨k, hk, by simp [hid]⟩)
  refine ⟨⟨hcode, hother, fun k hk => ?_⟩, ?_⟩
  · rw [hs]
    simp only [List.mem_append, List.mem_singleton]
    exact ⟨fun h => h.resolve_right fun heq => hk (heq ▸ rfl), .inl⟩
  · unfold Keyed
    rw [hs]
    refine ⟨⟨kiosk, by simp, rfl⟩, fun k hk hid => ?_⟩
    rcases List.mem_append.1 hk with hk | hk
    · exact absurd hid (hfresh k hk)
    · rw [List.mem_singleton.1 hk]

/-- A write that leaves the kiosks alone. -/
theorem write_sameKiosks {f : Schema → Except String Schema}
    (hf : ∀ t t', f t = .ok t' → t'.kiosks = t.kiosks)
    (h : write schema f s = .ok u s') : SameKiosks schema s.db s'.db := by
  obtain ⟨t, ht, hcode, rfl, hother⟩ := write_ok h
  exact ⟨hcode, hother, hf _ _ ht⟩

theorem createDisplayForKiosk_ok {display : Display} (h : createDisplayForKiosk schema display s = .ok u s') :
    SameKiosks schema s.db s'.db := by
  refine write_sameKiosks (fun t t' ht => ?_) h
  split at ht <;> cases ht
  rfl

theorem ensureLabel_ok {name freshId labelId : String}
    (h : ensureLabel schema name freshId s = .ok labelId s') :
    SameKiosks schema s.db s'.db := by
  obtain ⟨found, t, hq, h⟩ := EStateM.bind_eq_ok h
  have hdb := (query_ok hq).2
  rcases found with _ | l
  · obtain ⟨_, t', hw, h⟩ := EStateM.bind_eq_ok h
    obtain ⟨-, rfl⟩ := EStateM.pure_eq_ok h
    rw [← hdb]
    refine write_sameKiosks (fun t t' ht => ?_) hw
    split at ht <;> cases ht
    rfl
  · obtain ⟨-, rfl⟩ := EStateM.pure_eq_ok h
    rw [hdb]
    exact .refl

theorem attachKioskLabel_ok {kioskId labelId role : String}
    (h : attachKioskLabel schema kioskId labelId role s = .ok u s') :
    SameKiosks schema s.db s'.db := by
  refine write_sameKiosks (fun t t' ht => ?_) h
  rw [← Except.ok.inj ht]
  split <;> rfl

theorem attachLabels_ok {input : PairingConfirmInput} {kioskId : String} {names ids : List String}
    (h : attachLabels input kioskId names ids s = .ok u s') : SameKiosks input.schema s.db s'.db := by
  induction names generalizing s ids with
  | nil =>
    obtain ⟨-, rfl⟩ := EStateM.pure_eq_ok h
    exact .refl
  | cons name names ih =>
    unfold attachLabels at h
    split at h
    · exact ih h
    · obtain ⟨labelId, t, h₁, h⟩ := EStateM.bind_eq_ok h
      obtain ⟨_, t', h₂, h⟩ := EStateM.bind_eq_ok h
      exact ((ensureLabel_ok h₁).trans (attachKioskLabel_ok h₂)).trans (ih h)

theorem freeName_ok {base candidate name : String} {n suffix : Nat}
    (h : freeName schema base candidate n suffix s = .ok name s') : s'.db = s.db := by
  induction n generalizing s candidate suffix with
  | zero => cases h
  | succ n ih =>
    obtain ⟨found, t, hq, h⟩ := EStateM.bind_eq_ok h
    have hdb := (query_ok hq).2
    rcases found with _ | k
    · obtain ⟨-, rfl⟩ := EStateM.pure_eq_ok h
      exact hdb
    · dsimp only at h
      split at h
      · cases h
      · exact (ih h).trans hdb

end Frame

/-! ### The two confirmations -/

section Confirm

variable {K : Crypto} {now : Nat} {fresh : Fresh} {input : PairingConfirmInput} {pc : PairingCode}
  {id name : String}
  {s s' : Session Db}

theorem confirmAgain_ok (h : confirmAgain input pc s = .ok (id, name) s') :
    pc.extras.demo = input.demo ∧ pc.extras.tenant_schema = some input.schema ∧
      pc.extras.confirmation_request = some input.request ∧ s'.db = s.db ∧
      ∃ kiosk, pc.consumed_by_kiosk_id.bind (findKiosk s.db input.schema) = some kiosk ∧ id = kiosk.id ∧
        name = kiosk.name := by
  unfold confirmAgain at h
  split at h
  · cases h
  next hsame =>
  simp only [ne_eq, not_or, not_not] at hsame
  refine ⟨hsame.1, hsame.2.1, hsame.2.2, ?_⟩
  rcases hid : pc.consumed_by_kiosk_id with _ | kid
  · simp only [hid] at h
    cases h
  · simp only [hid] at h
    obtain ⟨found, t, hq, h⟩ := EStateM.bind_eq_ok h
    obtain ⟨hf, hdb⟩ := query_ok hq
    rcases found with _ | kiosk
    · cases h
    · obtain ⟨hr, rfl⟩ := EStateM.pure_eq_ok h
      obtain ⟨rfl, rfl⟩ := Prod.mk.inj hr
      exact ⟨hdb, kiosk, hf.symm, rfl, rfl⟩

theorem replaceKiosk_ok {target : String} (h : replaceKiosk K fresh input pc target s = .ok (id, name) s') :
    KioskOnly input.schema id s.db s'.db ∧ Keyed input.schema id (kioskKeyHash K fresh) s'.db := by
  obtain ⟨found, t, hq, h⟩ := EStateM.bind_eq_ok h
  obtain ⟨hf, hdb⟩ := query_ok hq
  rcases found with _ | existing
  · cases h
  dsimp only at h
  split at h
  · cases h
  obtain ⟨_, t₁, hrekey, h⟩ := EStateM.bind_eq_ok h
  obtain ⟨_, t₂, hmanaged, h⟩ := EStateM.bind_eq_ok h
  obtain ⟨hr, rfl⟩ := EStateM.pure_eq_ok h
  obtain ⟨rfl, rfl⟩ := Prod.mk.inj hr
  obtain ⟨honly, hkiosks⟩ := updateKiosk_ok hrekey fun _ => rfl
  have hkeyed : Keyed input.schema existing.id (kioskKeyHash K fresh) t₁.db := by
    unfold Keyed
    rw [hkiosks, hdb]
    have hmem : existing ∈ (s.db.schemas input.schema).kiosks := List.mem_of_find?_eq_some hf.symm
    refine ⟨⟨_, List.mem_map_of_mem hmem, by simp⟩, fun k hk hid => ?_⟩
    obtain ⟨a, -, rfl⟩ := List.mem_map.1 hk
    by_cases ha : a.id = existing.id
    · simp [ha]
    · simp [ha] at hid
  rw [hdb] at honly
  split at hmanaged
  · obtain ⟨honly', -⟩ := updateKiosk_ok hmanaged fun _ => rfl
    exact ⟨honly.trans honly', hkeyed.update hmanaged (fun _ => rfl) fun _ => rfl⟩
  · obtain ⟨-, rfl⟩ := EStateM.pure_eq_ok hmanaged
    exact ⟨honly, hkeyed⟩

theorem newKiosk_ok (h : newKiosk K fresh input pc s = .ok (id, name) s') :
    KioskOnly input.schema id s.db s'.db ∧ Keyed input.schema id (kioskKeyHash K fresh) s'.db := by
  obtain ⟨candidate, t, hname, h⟩ := EStateM.bind_eq_ok h
  obtain ⟨_, t₁, hcreate, h⟩ := EStateM.bind_eq_ok h
  obtain ⟨_, t₂, hdisplay, h⟩ := EStateM.bind_eq_ok h
  obtain ⟨_, t₃, hlabels, h⟩ := EStateM.bind_eq_ok h
  obtain ⟨hr, rfl⟩ := EStateM.pure_eq_ok h
  obtain ⟨rfl, rfl⟩ := Prod.mk.inj hr
  obtain ⟨honly, hkeyed⟩ := createKiosk_ok hcreate
  have hsame := (createDisplayForKiosk_ok hdisplay).trans (attachLabels_ok hlabels)
  rw [freeName_ok hname] at honly
  exact ⟨honly.trans hsame.only, hsame.keyed hkeyed⟩

/-- What the first confirmation has done when it returns. -/
structure Consumed (K : Crypto) (now : Nat) (fresh : Fresh) (input : PairingConfirmInput) (pc : PairingCode)
    (id : String) (db db' : Db) : Prop where
  code : db'.pairing_code = some (pc.consume now id (claimedExtras K now fresh input pc.extras))
  schemas : ∀ s, s ≠ input.schema → db'.schemas s = db.schemas s
  kiosks : ∀ k : Kiosk, k.id ≠ id →
    (k ∈ (db'.schemas input.schema).kiosks ↔ k ∈ (db.schemas input.schema).kiosks)
  kiosk : ∃ k, findKiosk db' input.schema id = some k ∧ k.key_hash = kioskKeyHash K fresh ∧
    k.encrypt_key_encrypted = some (K.encryptString fresh.kioskIv fresh.encryptKey "kiosk-encrypt")

theorem markPairingCodeClaimed_ok {extras : Extras} {u : Unit} (hpc : s.db.pairing_code = some pc)
    (h : markPairingCodeClaimed now id extras s = .ok u s') :
    s'.db = { s.db with pairing_code := some (pc.consume now id extras) } := by
  have h := exec_ok h
  simp only [hpc] at h
  split at h
  · cases h
  · exact (Except.ok.inj h).symm

theorem confirmFresh_ok (hpc : s.db.pairing_code = some pc)
    (h : confirmFresh K now fresh input pc s = .ok (id, name) s') :
    Consumed K now fresh input pc id s.db s'.db := by
  obtain ⟨⟨kid, kname⟩, t, hkiosk, h⟩ := EStateM.bind_eq_ok h
  obtain ⟨_, t₁, hencrypt, h⟩ := EStateM.bind_eq_ok h
  obtain ⟨_, t₂, hmark, h⟩ := EStateM.bind_eq_ok h
  obtain ⟨hr, rfl⟩ := EStateM.pure_eq_ok h
  obtain ⟨rfl, rfl⟩ := Prod.mk.inj hr
  have hfirst : KioskOnly input.schema kid s.db t.db ∧
      Keyed input.schema kid (kioskKeyHash K fresh) t.db := by
    unfold adoptKiosk at hkiosk
    rcases hrep : input.replaceKioskId with _ | target
    · simp only [hrep] at hkiosk
      exact newKiosk_ok hkiosk
    · simp only [hrep] at hkiosk
      exact replaceKiosk_ok hkiosk
  obtain ⟨honly', hkiosks⟩ := updateKiosk_ok hencrypt fun _ => rfl
  have honly := hfirst.1.trans honly'
  have hkeyed := hfirst.2.update hencrypt (fun _ => rfl) fun _ => rfl
  have hdb := markPairingCodeClaimed_ok (honly.code.trans hpc) hmark
  refine ⟨by rw [hdb], by rw [hdb]; exact honly.schemas, by rw [hdb]; exact honly.kiosks, ?_⟩
  obtain ⟨⟨k, hk, hid⟩, hall⟩ := hkeyed
  have hsome : (findKiosk t₁.db input.schema kid).isSome := List.find?_isSome.2 ⟨k, hk, by simp [hid]⟩
  obtain ⟨a, ha⟩ := Option.isSome_iff_exists.1 hsome
  have hmem := List.mem_of_find?_eq_some ha
  have haid : a.id = kid := by simpa using List.find?_some ha
  refine ⟨a, by rw [hdb]; exact ha, hall a hmem haid, ?_⟩
  rw [hkiosks] at hmem
  obtain ⟨b, -, rfl⟩ := List.mem_map.1 hmem
  by_cases hb : b.id = kid
  · rw [if_pos hb]
  · rw [if_neg hb] at haid
    exact absurd haid hb

theorem confirmPairing_ok {budget : Option Nat} {db db' : Db}
    (h : confirmPairing K now fresh input budget db = (.ok (id, name), db')) :
    ∃ pc, db.pairing_code = some pc ∧
      (pc.consumed_at.isSome ∧ pc.extras.demo = input.demo ∧ pc.extras.tenant_schema = some input.schema ∧
          pc.extras.confirmation_request = some input.request ∧ db' = db ∧
          (∃ kiosk, pc.consumed_by_kiosk_id.bind (findKiosk db input.schema) = some kiosk ∧ id = kiosk.id ∧
            name = kiosk.name) ∨
        pc.consumed_at = none ∧ Consumed K now fresh input pc id db db') := by
  obtain ⟨b, h⟩ := transact_ok h
  obtain ⟨found, t, hq, h⟩ := EStateM.bind_eq_ok h
  obtain ⟨hf, hdb⟩ := query_ok hq
  rcases found with _ | pc
  · cases h
  refine ⟨pc, hf.symm, ?_⟩
  have hdb : t.db = db := hdb
  dsimp only at h
  split at h
  · next hcons =>
    obtain ⟨h1, h2, h3, h4, h5⟩ := confirmAgain_ok h
    rw [hdb] at h4 h5
    exact .inl ⟨hcons, h1, h2, h3, h4, h5⟩
  · next hcons =>
    split at h
    · cases h
    · have := confirmFresh_ok (by rw [hdb]; exact hf.symm) h
      rw [hdb] at this
      exact .inr ⟨by simpa using hcons, this⟩

/-- The repeated confirmation when no connection breaks. -/
theorem confirmPairing_again {db : Db} (hpc : db.pairing_code = some pc) (hcons : pc.consumed_at.isSome)
    (hdemo : pc.extras.demo = input.demo) (hschema : pc.extras.tenant_schema = some input.schema)
    (hreq : pc.extras.confirmation_request = some input.request) :
    confirmPairing K now fresh input none db =
      (match pc.consumed_by_kiosk_id.bind (findKiosk db input.schema) with
        | some kiosk => .ok (kiosk.id, kiosk.name)
        | none => .error "paired kiosk no longer exists", db) := by
  have hagain : confirmAgain input pc ⟨db, none⟩ =
      match pc.consumed_by_kiosk_id.bind (findKiosk db input.schema) with
      | some kiosk => .ok (kiosk.id, kiosk.name) ⟨db, none⟩
      | none => .error "paired kiosk no longer exists" ⟨db, none⟩ := by
    have hsame : ¬ (pc.extras.demo ≠ input.demo ∨ pc.extras.tenant_schema ≠ some input.schema ∨
        pc.extras.confirmation_request ≠ some input.request) := by simp [hdemo, hschema, hreq]
    rw [confirmAgain, if_neg hsame]
    rcases pc.consumed_by_kiosk_id with _ | kid
    · rfl
    · refine (EStateM.bind_of_ok query_connected).trans ?_
      rw [Option.bind_some]
      rcases findKiosk db input.schema kid with _ | kiosk <;> rfl
  have hbody : confirmBody K now fresh input ⟨db, none⟩ = confirmAgain input pc ⟨db, none⟩ := by
    refine (EStateM.bind_of_ok query_connected).trans ?_
    simp only [hpc, hcons, if_true]
  rw [confirmPairing, transact, hbody, hagain]
  rcases pc.consumed_by_kiosk_id.bind (findKiosk db input.schema) with _ | kiosk <;> rfl

/-- Any other confirmation of a consumed code throws. -/
theorem confirmPairing_other {budget : Option Nat} {db db' : Db} {res : Except String (String × String)}
    (hpc : db.pairing_code = some pc) (hcons : pc.consumed_at.isSome)
    (h : confirmPairing K now fresh input budget db = (res, db')) :
    db' = db ∧ ((∃ e, res = .error e) ∨ pc.extras.demo = input.demo ∧
      pc.extras.tenant_schema = some input.schema ∧
      pc.extras.confirmation_request = some input.request) := by
  rcases res with e | ⟨id, name⟩
  · exact ⟨transact_error h, .inl ⟨e, rfl⟩⟩
  · obtain ⟨pc', hpc', hcase⟩ := confirmPairing_ok h
    obtain rfl := Option.some.inj (hpc.symm.trans hpc')
    rcases hcase with ⟨-, h1, h2, h3, hdb, -⟩ | ⟨hnone, -⟩
    · exact ⟨hdb, .inr ⟨h1, h2, h3⟩⟩
    · simp [hnone] at hcons

end Confirm

end Pairing
