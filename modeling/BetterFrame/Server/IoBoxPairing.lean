import BetterFrame.Lib.Run
import BetterFrame.Server.Pairing

/-!
# Enrolment of ioBOXes

`shared/iobox-pairing.ts` and the repository functions it calls. Each call is one transaction that
locks the row of its serial, so the calls on one serial come one after another; a nested `transact`
is part of the transaction it stands in. `Stage` is how far a serial has come: what its rows are,
and which envelopes have been handed out for it.
-/

namespace IoBoxPairing

open Machine Text Transaction Pairing

/-- A row of the registry of serials. -/
structure IoBoxSerial where
  model_id : String
  paired_tenant_id : Option String
  paired_iobox_id : Option String
deriving DecidableEq

/-- The claim of a serial: the envelope is kept until it is acknowledged. -/
structure ClaimRow where
  provisioning_secret_hash : String
  claim_encrypted : Option String
  acknowledged_at : Option Nat
deriving DecidableEq

structure TenantRow where
  schema_name : String
  is_active : Bool
deriving DecidableEq

structure IoBox where
  id : String
  serial : String
  model_id : String
  name : String
  key_hash : String
  key_prefix : String
  enabled : Bool
  assigned_display_id : Option String
deriving DecidableEq

/-- The public tables by their primary keys, and the tables of each tenant schema. -/
structure Db where
  serials : String → Option IoBoxSerial
  claims : String → Option ClaimRow
  /-- The names of the models. -/
  models : String → Option String
  tenants : String → Option TenantRow
  ioboxes : String → List IoBox
  displays : String → List String

/-- The tenant a claim is made for. -/
structure Tenant where
  id : Option String
  slug : String
  schema_name : String

/-- The body of a claim. -/
structure ClaimInput where
  serial : String
  provisioning_secret : Option String
  name : Option String
  assigned_display_id : Option String

/-- The random bytes and the id that a claim draws. -/
structure Fresh where
  keyBytes : String
  salt : String
  iv : String
  uuid : String
  uuid_ne : uuid ≠ ""

def Fresh.plaintext (fresh : Fresh) : String := "bfio-" ++ fresh.keyBytes

/-! ### Repository -/

def getIoBoxSerial (serial : String) : Tx Db (Option IoBoxSerial) := query fun db => db.serials serial

def getClaim (serial : String) : Tx Db (Option ClaimRow) := query fun db => db.claims serial

/-- Opens a claim for the serial, under its primary key. -/
def insertClaim (serial provisioning_secret_hash : String) : Tx Db Unit :=
  exec fun db =>
    if (db.claims serial).isSome then .error "duplicate key value"
    else .ok { db with
      claims := Function.update db.claims serial (some ⟨provisioning_secret_hash, none, none⟩) }

def updateClaim (serial : String) (f : ClaimRow → ClaimRow) : Tx Db Unit :=
  exec fun db => .ok { db with claims := Function.update db.claims serial ((db.claims serial).map f) }

def markIoBoxSerialPaired (serial : String) (tenantId : Option String) (ioBoxId : String) : Tx Db Unit :=
  exec fun db => .ok { db with
    serials := Function.update db.serials serial ((db.serials serial).map fun row =>
      { row with paired_tenant_id := tenantId, paired_iobox_id := some ioBoxId }) }

def getIoBoxById (schema id : String) : Tx Db (Option IoBox) :=
  query fun db => (db.ioboxes schema).find? fun b => b.id = id

def insertIoBox (schema : String) (box : IoBox) : Tx Db Unit :=
  exec fun db =>
    if (db.ioboxes schema).any fun b => b.id = box.id ∨ b.serial = box.serial then
      .error "duplicate key value"
    else if box.assigned_display_id.any (· ∉ db.displays schema) then .error "violates foreign key constraint"
    else .ok { db with ioboxes := Function.update db.ioboxes schema (db.ioboxes schema ++ [box]) }

def createIoBox (schema : String) (box : IoBox) : Tx Db IoBox := do
  insertIoBox schema box
  match ← getIoBoxById schema box.id with
  | none => throw "ioBOX vanished after insert"
  | some box => return box

/-- `/^[a-z_][a-z0-9_]*$/i` -/
def validSchema (schema : String) : Bool :=
  match schema.toList with
  | [] => false
  | c :: cs => (c.isAlpha || c == '_') && cs.all fun c => c.isAlphanum || c == '_'

/-- Runs in a tenant's schema, whose name must be valid. -/
def withSearchPath {α : Type} (schema : String) (x : Tx Db α) : Tx Db α :=
  if validSchema schema then x else throw ("invalid schema name: " ++ schema)

/-! ### Calls -/

section Calls

variable (K : Crypto)

/-- The first announcement with a secret binds the serial to it. -/
def bindBody (serial : String) (secret : Option String) : Tx Db Unit :=
  match truthy secret with
  | none => pure ()
  | some secret => do
    match ← getIoBoxSerial serial with
    | none => throw "unknown serial"
    | some serialRow =>
      match ← getClaim serial with
      | some claim =>
        if matchesSecret K (some secret) (some claim.provisioning_secret_hash) then pure ()
        else throw "invalid provisioning secret"
      | none =>
        if (truthy serialRow.paired_iobox_id).isSome then
          throw "serial already paired; operator reset required"
        else insertClaim serial (secretHash K secret)

def bindIoBoxProvisioning (serial : String) (secret : Option String) (budget : Option Nat) (db : Db) :
    Except String Unit × Db :=
  transact (bindBody K serial secret) budget db

def getTenantById (id : String) : Tx Db (Option TenantRow) := query fun db => db.tenants id

/-- The tenant the serial was given to. -/
def assignedTenant (registered : IoBoxSerial) : Tx Db (Option TenantRow) :=
  match truthy registered.paired_tenant_id with
  | none => pure none
  | some id => getTenantById id

/-- The envelope of a serial that is paired already. -/
def redeliver (registered : IoBoxSerial) (claim : Option ClaimRow) (pairedIoBoxId : String) : Tx Db Json :=
  match truthy (claim.bind ClaimRow.claim_encrypted) with
  | none => throw "serial already paired"
  | some encrypted =>
    match (K.decryptString encrypted "iobox-pairing-claim").bind Json.parse with
    | none => throw "ciphertext: bad format"
    | some envelope => do
      let tenant ← assignedTenant registered
      if (truthy registered.paired_tenant_id).isSome ∧ ¬ tenant.any TenantRow.is_active then
        throw "tenant unavailable"
      else
        let box ← withSearchPath ((tenant.map TenantRow.schema_name).getD "public")
          (getIoBoxById ((tenant.map TenantRow.schema_name).getD "public") pairedIoBoxId)
        if box.any IoBox.enabled then return envelope else throw "device revoked"

/-- What a claimed box is told. -/
def envelopeFor (tenant : Tenant) (id key : String) : Json :=
  .obj [("status", .str "claimed"), ("tenant_slug", .str tenant.slug), ("iobox_id", .str id),
    ("iobox_key", .str key),
    ("config_url", .str "/api/iobox/config"), ("heartbeat_url", .str "/api/iobox/heartbeat")]

def newBox (input : ClaimInput) (fresh : Fresh) (modelId modelName : String) : IoBox where
  id := fresh.uuid
  serial := input.serial
  model_id := modelId
  name := (truthy (input.name.map trim)).getD (modelName ++ " " ++ input.serial)
  key_hash := K.hashPassword fresh.salt fresh.plaintext
  key_prefix := String.ofList (fresh.plaintext.toList.take 8)
  enabled := true
  assigned_display_id := input.assigned_display_id

/-- Creates the ioBOX of a serial that is not paired yet. -/
def enrol (input : ClaimInput) (tenant : Tenant) (fresh : Fresh) (registered : IoBoxSerial)
    (claim : Option ClaimRow) :
    Tx Db Json := do
  match ← query fun db => db.models registered.model_id with
  | none => throw "serial model missing"
  | some modelName =>
    withSearchPath tenant.schema_name (do
      let box ← createIoBox tenant.schema_name (newBox K input fresh registered.model_id modelName)
      markIoBoxSerialPaired input.serial tenant.id box.id
      let envelope := envelopeFor tenant box.id fresh.plaintext
      (if claim.isSome then
        updateClaim input.serial fun row =>
          { row with
            claim_encrypted := some (K.encryptString fresh.iv envelope.stringify "iobox-pairing-claim") }
      else pure ())
      return envelope)

/-- What a claim does after it has bound its secret. -/
def claimBound (input : ClaimInput) (tenant : Tenant) (fresh : Fresh) (registered : IoBoxSerial) :
    Tx Db Json := do
  let claim ← getClaim input.serial
  if claim.any fun claim =>
    !matchesSecret K input.provisioning_secret (some claim.provisioning_secret_hash) then
    throw "invalid provisioning secret"
  else
    match truthy registered.paired_iobox_id with
    | some id => redeliver K registered claim id
    | none => enrol K input tenant fresh registered claim

/-- A claim: the serial, the tenant's box and the stored envelope. -/
def claimBody (input : ClaimInput) (tenant : Tenant) (fresh : Fresh) : Tx Db Json := do
  match ← getIoBoxSerial input.serial with
  | none => throw "unknown serial"
  | some registered =>
    bindBody K input.serial input.provisioning_secret
    claimBound K input tenant fresh registered

def claimIoBox (input : ClaimInput) (tenant : Tenant) (fresh : Fresh) (budget : Option Nat) (db : Db) :
    Except String Json × Db :=
  transact (claimBody K input tenant fresh) budget db

/-- An acknowledgement: the box has its key, the envelope is dropped. -/
def acknowledgeBody (serial deviceId tenantId : String) (secret : Option String) (now : Nat) :
    Tx Db Unit := do
  let registered ← getIoBoxSerial serial
  let claim ← getClaim serial
  if registered.bind IoBoxSerial.paired_iobox_id ≠ some deviceId ∨
    registered.bind IoBoxSerial.paired_tenant_id ≠ some tenantId ∨
      ¬ claim.any fun claim => matchesSecret K secret (some claim.provisioning_secret_hash) then
    throw "invalid pairing acknowledgement"
  else
    updateClaim serial fun row =>
      { row with
        claim_encrypted := none, acknowledged_at := row.acknowledged_at.orElse fun _ => some now }

def acknowledgeIoBox (serial deviceId tenantId : String) (secret : Option String) (now : Nat)
    (budget : Option Nat) (db : Db) :
    Except String Unit × Db :=
  transact (acknowledgeBody K serial deviceId tenantId secret now) budget db

end Calls

/-! ### Runs -/

/-- A call of an API replica, with what the transaction draws and how many of its statements get through. -/
inductive Call where
  | announce (serial : String) (secret : Option String) (budget : Option Nat)
  | claim (input : ClaimInput) (tenant : Tenant) (fresh : Fresh) (budget : Option Nat)
  | acknowledge (serial deviceId tenantId : String) (secret : Option String) (now : Nat) (budget : Option Nat)

def Call.serial : Call → String
  | .announce serial .. | .acknowledge serial .. => serial
  | .claim input .. => input.serial

def step (K : Crypto) (db : Db) : Call → Option Db
  | .announce serial secret budget => some (bindIoBoxProvisioning K serial secret budget db).2
  | .claim input tenant fresh budget => some (claimIoBox K input tenant fresh budget db).2
  | .acknowledge serial deviceId tenantId secret now budget =>
    some (acknowledgeIoBox K serial deviceId tenantId secret now budget db).2

/-- The envelope that a call returns, with the secret that was presented. -/
def Call.envelope (K : Crypto) (db : Db) : Call → Option (Option String × Json)
  | .claim input tenant fresh budget =>
    (claimIoBox K input tenant fresh budget db).1.toOption.map fun envelope =>
      (input.provisioning_secret, envelope)
  | _ => none

/-- The envelopes that the calls of a run return for `serial`. -/
def envelopes (K : Crypto) (serial : String) : Db → List Call → List (Option String × Json)
  | _, [] => []
  | db, c :: cs =>
    (if c.serial = serial then c.envelope K db else none).toList ++
      (step K db c).elim [] fun db' => envelopes K serial db' cs

/-! ### What a call that returned has done -/

section Returned

variable {K : Crypto} {serial : String} {secret : Option String} {input : ClaimInput}
  {tenant : Tenant} {fresh : Fresh}
  {registered : IoBoxSerial} {claim : Option ClaimRow} {envelope : Json} {u : Unit} {s s' : Session Db}

/-- The database with the secret `text` bound to the serial. -/
def Db.bind (db : Db) (K : Crypto) (serial text : String) : Db :=
  { db with claims := Function.update db.claims serial (some ⟨secretHash K text, none, none⟩) }

theorem bindBody_ok (h : bindBody K serial secret s = .ok u s') :
    (s'.db = s.db ∧ ∀ text, truthy secret = some text → ∃ claim, s.db.claims serial = some claim ∧
        matchesSecret K (some text) (some claim.provisioning_secret_hash)) ∨
      ∃ text row, truthy secret = some text ∧ s.db.serials serial = some row ∧
      truthy row.paired_iobox_id = none ∧
        s.db.claims serial = none ∧ s'.db = s.db.bind K serial text := by
  unfold bindBody at h
  rcases hsecret : truthy secret with _ | text
  · rw [hsecret] at h
    obtain ⟨-, rfl⟩ := EStateM.pure_eq_ok h
    exact .inl ⟨rfl, fun _ h => nomatch h⟩
  rw [hsecret] at h
  obtain ⟨found, t, hq, h⟩ := EStateM.bind_eq_ok h
  obtain ⟨hrow, ht⟩ := query_ok hq
  rcases found with _ | row
  · cases h
  obtain ⟨claim, t', hq, h⟩ := EStateM.bind_eq_ok h
  obtain ⟨hclaim, ht'⟩ := query_ok hq
  rw [ht] at hclaim
  rcases claim with _ | claim
  · dsimp only at h
    split at h
    · cases h
    next hpaired =>
    refine .inr ⟨text, row, rfl, hrow.symm, by simpa using hpaired, hclaim.symm, ?_⟩
    have h := exec_ok h
    rw [ht', ht, ← hclaim] at h
    exact (Except.ok.inj h).symm
  · dsimp only at h
    split at h
    · next hmatch =>
      obtain ⟨-, rfl⟩ := EStateM.pure_eq_ok h
      exact .inl ⟨ht'.trans ht, fun _ h => ⟨claim, hclaim.symm, Option.some.inj h ▸ hmatch⟩⟩
    · cases h

theorem withSearchPath_ok {α : Type} {schema : String} {x : Tx Db α} {a : α}
    (h : withSearchPath schema x s = .ok a s') :
    x s = .ok a s' := by
  unfold withSearchPath at h
  split at h
  · exact h
  · cases h

theorem assignedTenant_ok {tenant : Option TenantRow} (h : assignedTenant registered s = .ok tenant s') :
    s'.db = s.db := by
  unfold assignedTenant at h
  rcases hid : truthy registered.paired_tenant_id with _ | id
  · rw [hid] at h
    obtain ⟨-, rfl⟩ := EStateM.pure_eq_ok h
    rfl
  · rw [hid] at h
    exact (query_ok h).2

/-- A serial that is paired hands out what was stored for it, and nothing changes. -/
theorem redeliver_ok {id : String} (h : redeliver K registered claim id s = .ok envelope s') :
    s'.db = s.db ∧ ∃ row encrypted, claim = some row ∧ row.claim_encrypted = some encrypted ∧
      (K.decryptString encrypted "iobox-pairing-claim").bind Json.parse = some envelope := by
  unfold redeliver at h
  rcases hencrypted : truthy (claim.bind ClaimRow.claim_encrypted) with _ | encrypted
  · rw [hencrypted] at h
    cases h
  rw [hencrypted] at h
  dsimp only at h
  rcases hstored : (K.decryptString encrypted "iobox-pairing-claim").bind Json.parse with _ | stored
  · rw [hstored] at h
    cases h
  rw [hstored] at h
  obtain ⟨assigned, t, hassigned, h⟩ := EStateM.bind_eq_ok h
  have ht := assignedTenant_ok hassigned
  split at h
  · cases h
  obtain ⟨box, t', hbox, h⟩ := EStateM.bind_eq_ok h
  have ht' := (query_ok (withSearchPath_ok hbox)).2
  split at h
  · obtain ⟨rfl, rfl⟩ := EStateM.pure_eq_ok h
    obtain ⟨row, rfl, hrow⟩ := Option.bind_eq_some_iff.1 (truthy_eq_some.1 hencrypted).1
    exact ⟨ht'.trans ht, row, encrypted, rfl, hrow, hstored⟩
  · cases h

/-- What a claim that creates the ioBOX `box` of the serial has done. -/
structure Enrolled (K : Crypto) (input : ClaimInput) (tenant : Tenant) (fresh : Fresh)
    (envelope : Json) (box : IoBox) (db db' : Db) : Prop where
  serial : box.serial = input.serial
  returned : envelope = envelopeFor tenant fresh.uuid fresh.plaintext
  paired : (db'.serials input.serial).bind IoBoxSerial.paired_iobox_id = some fresh.uuid
  claim : db'.claims input.serial = (db.claims input.serial).map fun row =>
    { row with claim_encrypted := some (K.encryptString fresh.iv envelope.stringify "iobox-pairing-claim") }
  serials : ∀ serial, serial ≠ input.serial → db'.serials serial = db.serials serial
  claims : ∀ serial, serial ≠ input.serial → db'.claims serial = db.claims serial
  ioboxes : db'.ioboxes = Function.update db.ioboxes tenant.schema_name
    (db.ioboxes tenant.schema_name ++ [box])

theorem createIoBox_ok {schema : String} {new box : IoBox} (h : createIoBox schema new s = .ok box s') :
    box.id = new.id ∧ s'.db = { s.db with
      ioboxes := Function.update s.db.ioboxes schema (s.db.ioboxes schema ++ [new]) } := by
  obtain ⟨_, t, hinsert, h⟩ := EStateM.bind_eq_ok h
  obtain ⟨found, t', hq, h⟩ := EStateM.bind_eq_ok h
  obtain ⟨hfound, ht'⟩ := query_ok hq
  rcases found with _ | found
  · cases h
  obtain ⟨rfl, rfl⟩ := EStateM.pure_eq_ok h
  refine ⟨by simpa using List.find?_some hfound.symm, ?_⟩
  have hinsert := exec_ok hinsert
  split_ifs at hinsert
  rw [ht']
  exact (Except.ok.inj hinsert).symm

theorem enrol_ok (hrow : s.db.serials input.serial = some registered)
    (hclaim : claim = s.db.claims input.serial)
    (h : enrol K input tenant fresh registered claim s = .ok envelope s') :
    ∃ box, Enrolled K input tenant fresh envelope box s.db s'.db := by
  obtain ⟨model, t, hq, h⟩ := EStateM.bind_eq_ok h
  obtain ⟨-, ht⟩ := query_ok hq
  rcases model with _ | modelName
  · cases h
  have h := withSearchPath_ok h
  obtain ⟨box, t₁, hcreate, h⟩ := EStateM.bind_eq_ok h
  obtain ⟨hid, ht₁⟩ := createIoBox_ok hcreate
  rw [ht] at ht₁
  obtain ⟨_, t₂, hmark, h⟩ := EStateM.bind_eq_ok h
  have hmark := exec_ok hmark
  have ht₂ := Except.ok.inj hmark
  obtain ⟨_, t₃, hupdate, h⟩ := EStateM.bind_eq_ok h
  obtain ⟨rfl, rfl⟩ := EStateM.pure_eq_ok h
  have ht₃ : t₃.db = { t₂.db with
      claims := Function.update t₂.db.claims input.serial ((t₂.db.claims input.serial).map fun row =>
        { row with
        claim_encrypted := some (K.encryptString fresh.iv
          (envelopeFor tenant box.id fresh.plaintext).stringify
          "iobox-pairing-claim") }) } := by
    split at hupdate
    · have hupdate := exec_ok hupdate
      exact (Except.ok.inj hupdate).symm
    · next hnone =>
      obtain ⟨-, rfl⟩ := EStateM.pure_eq_ok hupdate
      have : t₂.db.claims input.serial = none := by
        rw [← ht₂, ht₁]
        simpa [hclaim] using hnone
      rw [this, Option.map_none, ← this, Function.update_eq_self]
  refine ⟨newBox K input fresh registered.model_id modelName, rfl, ?_, ?_, ?_, ?_, ?_, ?_⟩
  · rw [hid]
    rfl
  · rw [ht₃, ← ht₂, ht₁]
    simp only [Function.update_self, hrow, Option.map_some, Option.bind_some, hid]
    rfl
  · rw [ht₃, ← ht₂, ht₁, hid]
    simp
  · intro serial hne
    rw [ht₃, ← ht₂, ht₁]
    simp [hne]
  · intro serial hne
    rw [ht₃, ← ht₂, ht₁]
    simp [hne]
  · rw [ht₃, ← ht₂, ht₁]

/-- A claim that returned has found the secret to match, and either handed out what was stored or
created the ioBOX. -/
theorem claimBound_ok (hrow : s.db.serials input.serial = some registered)
    (h : claimBound K input tenant fresh registered s = .ok envelope s') :
    (∀ row, s.db.claims input.serial = some row →
        matchesSecret K input.provisioning_secret (some row.provisioning_secret_hash)) ∧
      ((∃ id row encrypted, truthy registered.paired_iobox_id = some id ∧ s'.db = s.db ∧
          s.db.claims input.serial = some row ∧ row.claim_encrypted = some encrypted ∧
          (K.decryptString encrypted "iobox-pairing-claim").bind Json.parse = some envelope) ∨
        truthy registered.paired_iobox_id = none ∧
        ∃ box, Enrolled K input tenant fresh envelope box s.db s'.db) := by
  obtain ⟨claim, t, hq, h⟩ := EStateM.bind_eq_ok h
  obtain ⟨hclaim, ht⟩ := query_ok hq
  split at h
  · cases h
  next hmatch =>
  rw [← hclaim, ← ht]
  refine ⟨fun row hrow => by simpa [hrow] using hmatch, ?_⟩
  rcases hpaired : truthy registered.paired_iobox_id with _ | id
  · rw [hpaired] at h
    rw [← ht] at hrow hclaim
    exact .inr ⟨rfl, enrol_ok hrow hclaim h⟩
  · rw [hpaired] at h
    obtain ⟨hdb, row, encrypted, rfl, hencrypted, hstored⟩ := redeliver_ok h
    exact .inl ⟨id, row, encrypted, rfl, hdb, rfl, hencrypted, hstored⟩

theorem acknowledgeBody_ok {deviceId tenantId : String} {now : Nat}
    (h : acknowledgeBody K serial deviceId tenantId secret now s = .ok u s') :
    ∃ row claim, s.db.serials serial = some row ∧ row.paired_iobox_id = some deviceId ∧
    s.db.claims serial = some claim ∧ matchesSecret K secret (some claim.provisioning_secret_hash) ∧
      s'.db = { s.db with claims := Function.update s.db.claims serial (some { claim with
        claim_encrypted := none, acknowledged_at := claim.acknowledged_at.orElse fun _ => some now }) } := by
  obtain ⟨registered, t, hq, h⟩ := EStateM.bind_eq_ok h
  obtain ⟨hregistered, ht⟩ := query_ok hq
  obtain ⟨claim, t', hq, h⟩ := EStateM.bind_eq_ok h
  obtain ⟨hclaim, ht'⟩ := query_ok hq
  split at h
  · cases h
  next hvalid =>
  simp only [ne_eq, not_or, not_not] at hvalid
  obtain ⟨hdevice, -, hmatch⟩ := hvalid
  obtain ⟨row, hrow, hdevice⟩ := Option.bind_eq_some_iff.1 hdevice
  rcases claim with _ | claim
  · exact absurd hmatch Bool.false_ne_true
  have h := exec_ok h
  have h := Except.ok.inj h
  rw [ht', ht] at h
  rw [ht] at hclaim
  refine ⟨row, claim, hregistered ▸ hrow, hdevice, hclaim.symm, by simpa using hmatch, ?_⟩
  rw [← h, ← hclaim]
  rfl

end Returned

/-! ### How far a serial has come -/

/-- The box the serial is paired with. -/
def Db.paired (db : Db) (serial : String) : Option String :=
  (db.serials serial).bind IoBoxSerial.paired_iobox_id

/-- The ioBOX and the claim of a serial, and the envelopes that have been returned for it with the
secrets presented: without a secret one is returned, and with a secret the same again and again
until it is acknowledged. -/
inductive Stage (K : Crypto) : Option String → Option ClaimRow → List (Option String × Json) → Prop
  | idle : Stage K none none []
  | bound (text) : Stage K none (some ⟨secretHash K text, none, none⟩) []
  | legacy (id given envelope) (hid : id ≠ "") : Stage K (some id) none [(given, envelope)]
  | issued (id text iv envelope envs) (hid : id ≠ "") (henvs : ∀ e ∈ envs, e = (some text, envelope)) :
    Stage K (some id)
      (some ⟨secretHash K text, some (K.encryptString iv envelope.stringify "iobox-pairing-claim"), none⟩)
        envs
  | acknowledged (id text now envelope envs) (hid : id ≠ "") (henvs : ∀ e ∈ envs, e = (some text, envelope)) :
    Stage K (some id) (some ⟨secretHash K text, none, some now⟩) envs

/-- What a call can do to the ioBOX and the claim of its serial, with the envelope it returns. -/
inductive Move (K : Crypto) :
    Option String → Option ClaimRow → Option (Option String × Json) → Option String → Option ClaimRow → Prop
  | stay (p claim) : Move K p claim none p claim
  | bind (text) : Move K none none none none (some ⟨secretHash K text, none, none⟩)
  | again (id row encrypted secret envelope)
    (hmatch : matchesSecret K secret (some row.provisioning_secret_hash))
      (hencrypted : row.claim_encrypted = some encrypted)
    (hstored : (K.decryptString encrypted "iobox-pairing-claim").bind Json.parse = some envelope) :
    Move K (some id) (some row) (some (secret, envelope)) (some id) (some row)
  | enrol (id iv claim secret) (envelope : Json) (hid : id ≠ "")
    (hmatch : ∀ row, claim = some row → matchesSecret K secret (some row.provisioning_secret_hash)) :
    Move K none claim (some (secret, envelope)) (some id) (claim.map fun row => { row with
      claim_encrypted := some (K.encryptString iv envelope.stringify "iobox-pairing-claim") })
  | acknowledge (id row now) :
    Move K (some id) (some row) none (some id)
      (some { row with
        claim_encrypted := none, acknowledged_at := row.acknowledged_at.orElse fun _ => some now })

/-- The serial is paired and nothing is stored for it that could be handed out. -/
def Silent (p : Option String) (claim : Option ClaimRow) : Prop := p.isSome ∧ ∀ row, claim = some row →
  row.claim_encrypted = none

section Move

variable {K : Crypto} {p p' : Option String} {claim claim' : Option ClaimRow}
  {e : Option (Option String × Json)}
  {envs : List (Option String × Json)} {row : ClaimRow} {id : String}

theorem Stage.truthy_paired (hs : Stage K p claim envs) : truthy p = p := by
  cases hs with
  | idle | bound => rfl
  | legacy id _ _ hid => exact truthy_eq_some.2 ⟨rfl, hid⟩
  | issued id _ _ _ _ hid => exact truthy_eq_some.2 ⟨rfl, hid⟩
  | acknowledged id _ _ _ _ hid => exact truthy_eq_some.2 ⟨rfl, hid⟩

theorem Move.stage (hK : K.Lawful) (hm : Move K p claim e p' claim') (hs : Stage K p claim envs) :
    Stage K p' claim' (envs ++ e.toList) := by
  cases hm with
  | stay => simpa using hs
  | bind text =>
    cases hs with
    | idle => exact .bound text
  | again id row encrypted secret envelope hmatch hencrypted hstored =>
    cases hs with
    | issued _ text iv stored _ hid henvs =>
      obtain rfl := Option.some.inj hencrypted
      rw [hK.decrypt_encrypt, Option.bind_some, Json.parse_stringify] at hstored
      obtain rfl := Option.some.inj hstored
      refine .issued id text iv stored _ hid fun e he => ?_
      rcases List.mem_append.1 he with he | he
      · exact henvs e he
      · rw [List.mem_singleton.1 he, matchesSecret_hash hK hmatch]
    | acknowledged => cases hencrypted
  | enrol id iv _ secret envelope hid hmatch =>
    cases hs with
    | idle => exact .legacy id secret envelope hid
    | bound text =>
      refine .issued id text iv envelope _ hid fun e he => ?_
      rw [List.nil_append] at he
      rw [List.mem_singleton.1 he, matchesSecret_hash hK (hmatch _ rfl)]
  | acknowledge id row now =>
    rw [Option.toList_none, List.append_nil]
    cases hs with
    | issued _ text _ envelope _ hid henvs => exact .acknowledged id text now envelope envs hid henvs
    | acknowledged _ text at_ envelope _ hid henvs => exact .acknowledged id text at_ envelope envs hid henvs

theorem Move.paired (hm : Move K p claim e p' claim') (hp : p = some id) : p' = some id := by
  cases hm with
  | stay | again | acknowledge => exact hp
  | bind | enrol => cases hp

theorem Move.hash (hm : Move K p claim e p' claim') (hc : claim = some row) :
    ∃ row', claim' = some row' ∧ row'.provisioning_secret_hash = row.provisioning_secret_hash := by
  cases hm with
  | stay | again => exact ⟨row, hc, rfl⟩
  | bind => cases hc
  | enrol =>
    rw [hc]
    exact ⟨_, rfl, rfl⟩
  | acknowledge =>
    obtain rfl := Option.some.inj hc
    exact ⟨_, rfl, rfl⟩

theorem Move.silent (hm : Move K p claim e p' claim') (hs : Silent p claim) :
    e = none ∧ Silent p' claim' := by
  cases hm with
  | stay => exact ⟨rfl, hs⟩
  | bind => cases hs.1
  | again id row encrypted _ _ _ hencrypted =>
    rw [hs.2 row rfl] at hencrypted
    cases hencrypted
  | enrol => cases hs.1
  | acknowledge id row now => exact ⟨rfl, rfl, fun _ h => Option.some.inj h ▸ rfl⟩

end Move

/-! ### Calls as moves -/

section Calls

variable {K : Crypto} {serial : String} {secret : Option String} {input : ClaimInput}
  {tenant : Tenant} {fresh : Fresh}
  {registered : IoBoxSerial} {envelope : Json} {u : Unit} {s s' : Session Db} {db db' : Db} {c : Call}

theorem bindBody_move (hp : truthy (s.db.paired serial) = s.db.paired serial)
    (h : bindBody K serial secret s = .ok u s') :
    Move K (s.db.paired serial) (s.db.claims serial) none (s'.db.paired serial) (s'.db.claims serial) := by
  rcases bindBody_ok h with ⟨hdb, -⟩ | ⟨text, row, -, hrow, hpaired, hclaim, hdb⟩
  · rw [hdb]
    exact .stay _ _
  have hnone : s.db.paired serial = none := by
    rw [← hp, Db.paired, hrow]
    exact hpaired
  rw [hdb]
  show Move K _ _ _ (s.db.paired serial) (Function.update s.db.claims serial _ serial)
  rw [hnone, hclaim, Function.update_self]
  exact .bind text

theorem acknowledgeBody_move {deviceId tenantId : String} {now : Nat}
    (h : acknowledgeBody K serial deviceId tenantId secret now s = .ok u s') :
    Move K (s.db.paired serial) (s.db.claims serial) none (s'.db.paired serial) (s'.db.claims serial) ∧
      Silent (s'.db.paired serial) (s'.db.claims serial) := by
  obtain ⟨row, claim, hrow, hdevice, hclaim, -, hdb⟩ := acknowledgeBody_ok h
  have hpaired : s.db.paired serial = some deviceId := by
    rw [Db.paired, hrow]
    exact hdevice
  rw [hdb]
  show Move K _ _ _ (s.db.paired serial) (Function.update s.db.claims serial _ serial) ∧
    Silent (s.db.paired serial) (Function.update s.db.claims serial _ serial)
  rw [hpaired, hclaim, Function.update_self]
  exact ⟨.acknowledge deviceId claim now, rfl, fun _ h => Option.some.inj h ▸ rfl⟩

theorem claimBound_move (hp : truthy (s.db.paired input.serial) = s.db.paired input.serial)
    (hrow : s.db.serials input.serial = some registered)
    (h : claimBound K input tenant fresh registered s = .ok envelope s') :
    Move K (s.db.paired input.serial) (s.db.claims input.serial) (some (input.provisioning_secret, envelope))
        (s'.db.paired input.serial) (s'.db.claims input.serial) ∧
      (s'.db = s.db ∨ s.db.paired input.serial = none ∧
        ∃ box, Enrolled K input tenant fresh envelope box s.db s'.db) := by
  obtain ⟨hmatch, hcase⟩ := claimBound_ok hrow h
  have hpaired : truthy registered.paired_iobox_id = s.db.paired input.serial := by
    rw [← hp, Db.paired, hrow]
    rfl
  rcases hcase with ⟨id, row, encrypted, hid, hdb, hclaim, hencrypted, hstored⟩ | ⟨hnone, box, hbox⟩
  · rw [hdb, ← hpaired, hid, hclaim]
    exact ⟨.again id row encrypted _ envelope (hmatch row hclaim) hencrypted hstored, .inl rfl⟩
  · rw [show s'.db.paired input.serial = some fresh.uuid from hbox.paired, hbox.claim, ← hpaired, hnone]
    exact ⟨.enrol fresh.uuid fresh.iv _ _ envelope fresh.uuid_ne hmatch, .inr ⟨rfl, box, hbox⟩⟩

/-- Everything a step can do for the serial `serial`: a call on it is a move or two of which the
last may return an envelope, and one that creates an ioBOX finds the serial without one. -/
structure Steps (K : Crypto) (serial : String) (e : Option (Option String × Json)) (db db' : Db) : Prop where
  moves : ∃ p claim, Move K (db.paired serial) (db.claims serial) none p claim ∧
    Move K p claim e (db'.paired serial) (db'.claims serial)
  ioboxes : (∀ schema b, b.serial = serial → (b ∈ db'.ioboxes schema ↔ b ∈ db.ioboxes schema)) ∨
    db.paired serial = none ∧ (db'.paired serial).isSome ∧ ∃ schema box, box.serial = serial ∧
      db'.ioboxes = Function.update db.ioboxes schema (db.ioboxes schema ++ [box])

theorem Steps.refl : Steps K serial none db db := ⟨⟨_, _, .stay _ _, .stay _ _⟩, .inl fun _ _ _ => Iff.rfl⟩

/-- A step that leaves the rows of the serial alone. -/
theorem Steps.other (hserials : db'.serials serial = db.serials serial)
    (hclaims : db'.claims serial = db.claims serial)
    (hboxes : ∀ schema b, b.serial = serial → (b ∈ db'.ioboxes schema ↔ b ∈ db.ioboxes schema)) :
    Steps K serial none db db' := by
  refine ⟨⟨_, _, .stay _ _, ?_⟩, .inl hboxes⟩
  rw [Db.paired, Db.paired, hserials, hclaims]
  exact .stay _ _

/-- Binding a secret leaves the ioBOXes and the rows of the other serials alone. -/
theorem bindBody_frame (h : bindBody K serial secret s = .ok u s') :
    s'.db.serials = s.db.serials ∧ s'.db.ioboxes = s.db.ioboxes ∧
      ∀ other, other ≠ serial → s'.db.claims other = s.db.claims other := by
  rcases bindBody_ok h with ⟨hdb, -⟩ | ⟨text, row, -, -, -, -, hdb⟩
  · rw [hdb]
    exact ⟨rfl, rfl, fun _ _ => rfl⟩
  · rw [hdb]
    exact ⟨rfl, rfl, fun other hne => Function.update_of_ne hne ..⟩

theorem announce_steps {budget : Option Nat} (hp : truthy (db.paired serial) = db.paired serial)
    {given : String}
    (h : bindIoBoxProvisioning K given secret budget db = (.ok (), db')) : Steps K serial none db db' := by
  obtain ⟨b, h⟩ := transact_ok h
  obtain ⟨hserials, hboxes, hclaims⟩ := bindBody_frame h
  by_cases hne : serial = given
  · subst hne
    exact ⟨⟨_, _, bindBody_move hp h, .stay _ _⟩,
      .inl fun schema b _ => by rw [show db'.ioboxes = db.ioboxes from hboxes]⟩
  · exact .other (congrFun hserials serial) (hclaims serial hne) fun schema b _ => by
      rw [show db'.ioboxes = db.ioboxes from hboxes]

theorem acknowledge_steps {budget : Option Nat} {deviceId tenantId given : String} {now : Nat}
    (h : acknowledgeIoBox K given deviceId tenantId secret now budget db = (.ok (), db')) :
    Steps K serial none db db' := by
  obtain ⟨b, h⟩ := transact_ok h
  obtain ⟨row, claim, -, -, -, -, hdb⟩ := acknowledgeBody_ok h
  have hdb : db' = _ := hdb
  by_cases hne : serial = given
  · subst hne
    exact ⟨⟨_, _, (acknowledgeBody_move h).1, .stay _ _⟩, .inl fun schema b _ => by rw [hdb]⟩
  · refine .other (by rw [hdb]) ?_ fun schema b _ => by rw [hdb]
    rw [hdb]
    exact Function.update_of_ne hne ..

theorem claimBody_ok (h : claimBody K input tenant fresh s = .ok envelope s') :
    ∃ registered t u, s.db.serials input.serial = some registered ∧
    bindBody K input.serial input.provisioning_secret u = .ok () t ∧
      u.db = s.db ∧ claimBound K input tenant fresh registered t = .ok envelope s' := by
  obtain ⟨found, u, hq, h⟩ := EStateM.bind_eq_ok h
  obtain ⟨hfound, hu⟩ := query_ok hq
  rcases found with _ | registered
  · cases h
  obtain ⟨_, t, hbind, h⟩ := EStateM.bind_eq_ok h
  exact ⟨registered, t, u, hfound.symm, hbind, hu, h⟩

theorem Enrolled.boxes {box : IoBox} (h : Enrolled K input tenant fresh envelope box db db')
    (hne : serial ≠ input.serial)
    {schema : String} {b : IoBox} (hb : b.serial = serial) : b ∈ db'.ioboxes schema ↔
    b ∈ db.ioboxes schema := by
  rw [h.ioboxes]
  by_cases hs : schema = tenant.schema_name
  · subst hs
    rw [Function.update_self, List.mem_append, List.mem_singleton]
    constructor
    · rintro (hmem | rfl)
      · exact hmem
      · exact absurd (hb.symm.trans h.serial) hne
    · exact .inl
  · rw [Function.update_of_ne hs]

theorem claim_steps (hK : K.Lawful) {envs : List (Option String × Json)} {budget : Option Nat}
    (hs : Stage K (db.paired serial) (db.claims serial) envs)
    (h : claimIoBox K input tenant fresh budget db = (.ok envelope, db')) :
    Steps K serial (if input.serial = serial then some (input.provisioning_secret, envelope)
      else none) db db' := by
  obtain ⟨b, h⟩ := transact_ok h
  obtain ⟨registered, t, u, hrow, hbind, hu, h⟩ := claimBody_ok h
  obtain ⟨hserials, hboxes, hclaims⟩ := bindBody_frame hbind
  have hu : u.db = db := hu
  rw [hu] at hserials hboxes hclaims
  have hrow : t.db.serials input.serial = some registered := by rw [hserials]; exact hrow
  by_cases hne : serial = input.serial
  · subst hne
    rw [if_pos rfl]
    rw [← hu] at hs
    have hm := bindBody_move hs.truthy_paired hbind
    have hs' := hm.stage hK hs
    obtain ⟨hm', hcase⟩ := claimBound_move hs'.truthy_paired hrow h
    have hpaired : t.db.paired input.serial = db.paired input.serial := by rw [Db.paired, hserials]; rfl
    rw [hu] at hm
    refine ⟨⟨_, _, hm, hm'⟩, ?_⟩
    rcases hcase with hdb | ⟨hnone, box, hbox⟩
    · refine .inl fun schema b _ => ?_
      rw [show db' = t.db from hdb, hboxes]
    · refine .inr ⟨hpaired ▸ hnone, ?_, tenant.schema_name, box, hbox.serial, ?_⟩
      · rw [Db.paired, show (db'.serials input.serial).bind IoBoxSerial.paired_iobox_id = _ from hbox.paired]
        rfl
      · rw [← hboxes]
        exact hbox.ioboxes
  · rw [if_neg (Ne.symm hne)]
    rcases (claimBound_ok hrow h).2 with ⟨_, _, _, _, hdb, _⟩ | ⟨-, box, hbox⟩
    · have hdb : db' = t.db := hdb
      exact .other (by rw [hdb, hserials]) (by rw [hdb, hclaims serial hne]) fun schema b _ => by
        rw [hdb, hboxes]
    · refine .other ((hbox.serials serial hne).trans (by rw [hserials]))
        ((hbox.claims serial hne).trans (hclaims serial hne))
        fun schema b hb => ?_
      rw [hbox.boxes hne hb, hboxes]

/-- What one call can do for a serial, also when its transaction is aborted. -/
theorem step_steps (hK : K.Lawful) {envs : List (Option String × Json)} (h : step K db c = some db')
    (hs : Stage K (db.paired serial) (db.claims serial) envs) :
    Steps K serial (if c.serial = serial then c.envelope K db else none) db db' := by
  cases c with
  | announce given secret budget =>
    obtain rfl := Option.some.inj h
    show Steps K serial (if given = serial then none
      else none) db (bindIoBoxProvisioning K given secret budget db).2
    rw [ite_self]
    rcases hr : bindIoBoxProvisioning K given secret budget db with ⟨_ | _, db'⟩
    · rw [transact_error hr]
      exact .refl
    · exact announce_steps hs.truthy_paired hr
  | acknowledge given deviceId tenantId secret now budget =>
    obtain rfl := Option.some.inj h
    show Steps K serial (if given = serial then none else none) db
      (acknowledgeIoBox K given deviceId tenantId secret now budget db).2
    rw [ite_self]
    rcases hr : acknowledgeIoBox K given deviceId tenantId secret now budget db with ⟨_ | _, db'⟩
    · rw [transact_error hr]
      exact .refl
    · exact acknowledge_steps hr
  | claim input tenant fresh budget =>
    obtain rfl := Option.some.inj h
    show Steps K serial (if input.serial = serial then
      (claimIoBox K input tenant fresh budget db).1.toOption.map _
        else none) db (claimIoBox K input tenant fresh budget db).2
    rcases hr : claimIoBox K input tenant fresh budget db with ⟨_ | envelope, db'⟩
    · rw [transact_error hr]
      simp only [Except.toOption, Option.map_none, ite_self]
      exact .refl
    · exact claim_steps hK hs hr

end Calls

/-! ### Enrolment -/

/-- The serial, registered or not, before anything has been announced or claimed for it. -/
structure Unused (serial : String) (db : Db) : Prop where
  unpaired : db.paired serial = none
  unclaimed : db.claims serial = none
  ioboxes : ∀ schema, ∀ b ∈ db.ioboxes schema, b.serial ≠ serial

/-- The ioBOX of the serial is the only one in any schema, and there is none before the serial is paired. -/
structure Single (serial : String) (db : Db) : Prop where
  one : ∀ schema schema' b b', b ∈ db.ioboxes schema → b' ∈ db.ioboxes schema' → b.serial = serial →
    b'.serial = serial → schema = schema' ∧ b = b'
  none : db.paired serial = none → ∀ schema, ∀ b ∈ db.ioboxes schema, b.serial ≠ serial

section Enrolment

variable {K : Crypto} {serial : String} {db₀ db db' : Db} {e : Option (Option String × Json)}
  {envs : List (Option String × Json)} {c : Call} {cs cs' : List Call} {row : ClaimRow} {id : String}

theorem Steps.stage (hK : K.Lawful) (h : Steps K serial e db db')
    (hs : Stage K (db.paired serial) (db.claims serial) envs) :
    Stage K (db'.paired serial) (db'.claims serial) (envs ++ e.toList) := by
  obtain ⟨p, claim, hm, hm'⟩ := h.moves
  have := hm'.stage hK (hm.stage hK hs)
  rwa [Option.toList_none, List.append_nil] at this

theorem Steps.paired (h : Steps K serial e db db') (hp : db.paired serial = some id) :
    db'.paired serial = some id := by
  obtain ⟨p, claim, hm, hm'⟩ := h.moves
  exact hm'.paired (hm.paired hp)

theorem Steps.hash (h : Steps K serial e db db') (hc : db.claims serial = some row) :
    ∃ row', db'.claims serial = some row' ∧ row'.provisioning_secret_hash = row.provisioning_secret_hash := by
  obtain ⟨p, claim, hm, hm'⟩ := h.moves
  obtain ⟨row', hrow', hhash⟩ := hm.hash hc
  obtain ⟨row'', hrow'', hhash'⟩ := hm'.hash hrow'
  exact ⟨row'', hrow'', hhash'.trans hhash⟩

theorem Steps.silent (h : Steps K serial e db db') (hs : Silent (db.paired serial) (db.claims serial)) :
    e = none ∧ Silent (db'.paired serial) (db'.claims serial) := by
  obtain ⟨p, claim, hm, hm'⟩ := h.moves
  exact hm'.silent (hm.silent hs).2

theorem Steps.single (h : Steps K serial e db db') (hs : Single serial db) : Single serial db' := by
  rcases h.ioboxes with hsame | ⟨hnone, hsome, schema, box, hbox, hio⟩
  · refine ⟨fun schema schema' b b' hb hb' hser hser' => ?_, fun hnone schema b hb hser => ?_⟩
    · exact hs.one schema schema' b b' ((hsame schema b hser).1 hb) ((hsame schema' b' hser').1 hb')
        hser hser'
    · have hnone : db.paired serial = none := by
        rcases hp : db.paired serial with _ | id
        · rfl
        · rw [h.paired hp] at hnone
          cases hnone
      exact hs.none hnone schema b ((hsame schema b hser).1 hb) hser
  · have honly (t : String) (b : IoBox) (hb : b ∈ db'.ioboxes t) (hser : b.serial = serial) :
        t = schema ∧ b = box := by
      rw [hio] at hb
      by_cases ht : t = schema
      · subst ht
        rw [Function.update_self, List.mem_append, List.mem_singleton] at hb
        rcases hb with hb | rfl
        · exact absurd hser (hs.none hnone t b hb)
        · exact ⟨rfl, rfl⟩
      · rw [Function.update_of_ne ht] at hb
        exact absurd hser (hs.none hnone t b hb)
    refine ⟨fun t t' b b' hb hb' hser hser' => ?_, fun hnone => ?_⟩
    · obtain ⟨rfl, rfl⟩ := honly t b hb hser
      obtain ⟨rfl, rfl⟩ := honly t' b' hb' hser'
      exact ⟨rfl, rfl⟩
    · rw [hnone] at hsome
      cases hsome

theorem run_stage (hK : K.Lawful) (hr : run (step K) db cs = some db')
    (hs : Stage K (db.paired serial) (db.claims serial) envs) :
    Stage K (db'.paired serial) (db'.claims serial) (envs ++ envelopes K serial db cs) := by
  induction cs generalizing db envs with
  | nil =>
    obtain rfl := Option.some.inj hr
    rwa [envelopes, List.append_nil]
  | cons c cs ih =>
    obtain ⟨t, ht, hr⟩ := run_cons.1 hr
    have hstep := (step_steps hK ht hs).stage hK hs
    rw [envelopes, ht, ← List.append_assoc]
    exact ih hr hstep

/-- What every step keeps for the serial, a run from a stage keeps. -/
theorem run_keeps (hK : K.Lawful) {I : Db → Prop} (hI : ∀ db db' e, Steps K serial e db db' → I db → I db')
    (hr : run (step K) db cs = some db') (hs : Stage K (db.paired serial) (db.claims serial) envs)
    (h : I db) : I db' := by
  have hboth := run_inv (I := fun db => I db ∧ ∃ envs, Stage K (db.paired serial) (db.claims serial) envs)
    (fun db c db' hc ⟨hi, envs, hs⟩ => ?_) hr ⟨h, envs, hs⟩
  · exact hboth.1
  · have hsteps := step_steps hK hc hs
    exact ⟨hI _ _ _ hsteps hi, _, hsteps.stage hK hs⟩

theorem run_silent (hK : K.Lawful) (hs : Stage K (db.paired serial) (db.claims serial) envs)
    (hsilent : Silent (db.paired serial) (db.claims serial)) : envelopes K serial db cs = [] := by
  induction cs generalizing db envs with
  | nil => rfl
  | cons c cs ih =>
    rcases ht : step K db c with _ | t
    · cases c <;> cases ht
    have hsteps := step_steps hK ht hs
    obtain ⟨hnone, hsilent⟩ := hsteps.silent hsilent
    rw [envelopes, ht, hnone]
    exact ih (hsteps.stage hK hs) hsilent

/-- Every run of announcements, claims and acknowledgements of any serials, begun when nothing had
been announced or claimed for `serial`. -/
theorem enrolment_safe (hK : K.Lawful) (h₀ : Unused serial db₀) (hr : run (step K) db₀ cs = some db) :
    (∀ schema schema' b b', b ∈ db.ioboxes schema → b' ∈ db.ioboxes schema' → b.serial = serial →
      b'.serial = serial → schema = schema' ∧ b = b') ∧
      (∀ cs' db' id, run (step K) db cs' = some db' → db.paired serial = some id →
        db'.paired serial = some id) ∧
      (∀ row, db.claims serial = some row →
        ∃ secret envelope, row.provisioning_secret_hash = secretHash K secret ∧
        ∀ e ∈ envelopes K serial db₀ cs, e = (some secret, envelope)) ∧
      (∀ cs' db' row, run (step K) db cs' = some db' → db.claims serial = some row →
        ∃ row', db'.claims serial = some row' ∧
        row'.provisioning_secret_hash = row.provisioning_secret_hash) ∧
      (∀ deviceId tenantId secret now budget db' cs',
        acknowledgeIoBox K serial deviceId tenantId secret now budget db = (.ok (), db') →
        envelopes K serial db' cs' = []) ∧ ((db.paired serial).isSome → db.claims serial = none →
        (envelopes K serial db₀ cs).length ≤ 1 ∧ ∀ cs', envelopes K serial db cs' = []) := by
  have hidle : Stage K (db₀.paired serial) (db₀.claims serial) [] := by
    rw [h₀.unpaired, h₀.unclaimed]
    exact .idle
  have hs := run_stage hK hr hidle
  rw [List.nil_append] at hs
  refine ⟨?_, fun cs' db' id hr' hp => ?_, fun row hrow => ?_, fun cs' db' row hr' hrow => ?_, ?_,
    fun hp hc => ?_⟩
  · have hsingle : Single serial db₀ :=
      ⟨fun schema _ b _ hb _ hser _ => absurd hser (h₀.ioboxes schema b hb), fun _ => h₀.ioboxes⟩
    exact (run_keeps hK (fun _ _ _ => Steps.single) hr hidle hsingle).one
  · exact run_keeps hK (I := fun db => db.paired serial = some id) (fun _ _ _ => Steps.paired) hr' hs hp
  · rw [hrow] at hs
    generalize db.paired serial = p at hs
    generalize henvs : envelopes K serial db₀ cs = envs at hs
    cases hs with
    | bound text => exact ⟨text, .null, rfl, fun e he => absurd he List.not_mem_nil⟩
    | issued _ text _ envelope _ _ hall => exact ⟨text, envelope, rfl, hall⟩
    | acknowledged _ text _ envelope _ _ hall => exact ⟨text, envelope, rfl, hall⟩
  · obtain ⟨row', hrow', hhash⟩ := run_keeps hK
      (I := fun db => ∃ row', db.claims serial = some row' ∧
        row'.provisioning_secret_hash = row.provisioning_secret_hash)
      (fun _ _ _ hsteps ⟨row', hrow', hhash⟩ => (hsteps.hash hrow').imp fun _ h =>
        ⟨h.1, h.2.trans hhash⟩) hr' hs
      ⟨row, hrow, rfl⟩
    exact ⟨row', hrow', hhash⟩
  · intro deviceId tenantId secret now budget db' cs' h
    have hstep := (acknowledge_steps h).stage hK hs
    obtain ⟨b, h⟩ := transact_ok h
    exact run_silent hK hstep (acknowledgeBody_move h).2
  · refine ⟨?_, fun cs' => run_silent hK hs ⟨hp, fun row hrow => by rw [hc] at hrow; cases hrow⟩⟩
    obtain ⟨id, hid⟩ := Option.isSome_iff_exists.1 hp
    rw [hid, hc] at hs
    generalize envelopes K serial db₀ cs = envs at hs
    cases hs with
    | legacy => exact Nat.le_refl 1

/-- One registered serial. -/
def registered : Db where
  serials serial := if serial = "BF-1" then some ⟨"ioBOX-WIFI", none, none⟩ else none
  claims _ := none
  models id := if id = "ioBOX-WIFI" then some "ioBOX Wi-Fi" else none
  tenants _ := some ⟨"tenant_one", true⟩
  ioboxes _ := []
  displays _ := []

/-- A device that announces itself, claims, loses the answer and claims again, while another one
claims too. -/
def retry : List Call :=
  let claim (secret : Option String) : Call :=
    .claim ⟨"BF-1", secret, none, none⟩ ⟨some "one", "one", "tenant_one"⟩ ⟨"key", "salt", "iv",
      "uuid", by decide⟩ none
  [.announce "BF-1" (some "secret") none, claim (some "secret"), claim none, claim (some "secret")]

theorem enrolment_safe_retry :
    ∃ db, run (step plainCrypto) registered retry = some db ∧ ∀ row, db.claims "BF-1" = some row →
      ∃ secret envelope, row.provisioning_secret_hash = secretHash plainCrypto secret ∧
        ∀ e ∈ envelopes plainCrypto "BF-1" registered retry, e = (some secret, envelope) := by
  have hunused : Unused "BF-1" registered := ⟨rfl, rfl, fun _ _ h => absurd h List.not_mem_nil⟩
  have hrun : run (step plainCrypto) registered retry = some _ := rfl
  exact ⟨_, hrun, (enrolment_safe plainCrypto_lawful hunused hrun).2.2.1⟩

end Enrolment

end IoBoxPairing
