import BetterFrame.Lib.Json
import BetterFrame.Lib.Transaction
import Mathlib.Logic.Function.Basic

/-!
# Pairing

`shared/pairing.ts` and the repository functions it calls. The model has the row of one pairing code
and, for each tenant schema, the tables that `confirmPairing` writes. A code's row and its `extras`
are typed: an `extras` value of another type than the code writes there reads as absent.

`confirmPairing` and `acknowledgePairing` are transactions that lock the code's row. `claimPairing`
takes no lock and awaits twice, so it is given in the two pieces between its awaits.
-/

namespace Pairing

open Text Transaction

/-- What `crypto`, `auth` and `secrets` supply. Random bytes come with the arguments. -/
structure Crypto where
  sha256 : String → List UInt8
  hashPassword : (salt text : String) → String
  verifyPassword : (text hash : String) → Bool
  encryptString : (iv text info : String) → String
  decryptString : (text info : String) → Option String

/-- What is assumed of `Crypto`. -/
structure Crypto.Lawful (K : Crypto) : Prop where
  sha256_injective : Function.Injective K.sha256
  sha256_ne_nil : ∀ text, K.sha256 text ≠ []
  verify_hash : ∀ salt text, K.verifyPassword text (K.hashPassword salt text) = true
  decrypt_encrypt : ∀ iv text info, K.decryptString (K.encryptString iv text info) info = some text

/-- An ISO text, by the instant it names, or a text that names none. -/
inductive Stamp where
  | at (ms : Nat)
  | invalid
deriving DecidableEq

/-- `Date.parse(stamp) - now`, where the stamp names an instant. -/
def Stamp.remaining (now : Nat) : Stamp → Option Int
  | .at ms => some (ms - now)
  | .invalid => none

/-- The column `extras` of a pairing code. -/
structure Extras where
  managed_image : Bool
  polling_secret_hash : Option String
  pairing_claim_encrypted : Option String
  kiosk_key_plaintext : Option String
  encrypt_key : Option String
  cluster_key : Option String
  demo : Bool
  claim_expires_at : Option Stamp
  confirmation_request : Option String
  tenant_id : Option String
  tenant_slug : Option String
  tenant_schema : Option String
  acknowledged_at : Option Stamp
deriving DecidableEq

/-- A row of `pairing_codes`. -/
structure PairingCode where
  code : String
  kiosk_proposed_name : Option String
  kiosk_hardware_model : Option String
  kiosk_firmware_target : Option String
  kiosk_capabilities : List String
  expires_at : Stamp
  consumed_at : Option Stamp
  consumed_by_kiosk_id : Option String
  extras : Extras
deriving DecidableEq

structure Kiosk where
  id : String
  name : String
  key_hash : String
  key_prefix : String
  capabilities : List String
  hardware_model : Option String
  firmware_target : Option String
  managed_image : Bool
  enabled : Bool
  encrypt_key_encrypted : Option String
deriving DecidableEq

structure Display where
  id : String
  name : String
  kiosk_id : String
deriving DecidableEq

structure Label where
  id : String
  name : String
deriving DecidableEq

/-- The tables of one tenant. -/
structure Schema where
  kiosks : List Kiosk
  displays : List Display
  labels : List Label
  /-- Kiosk id, label id and role. -/
  kiosk_labels : List (String × String × String)
deriving DecidableEq

structure Db where
  pairing_code : Option PairingCode
  schemas : String → Schema

def DELIVERY_GRACE_MS : Nat := 15 * 60000

def secretHash (K : Crypto) (secret : String) : String := String.ofList (hexOfBytes (K.sha256 secret))

/-- The secret has the stored digest. -/
def matchesSecret (K : Crypto) (secret hash : Option String) : Bool :=
  match truthy secret, hash with
  | some secret, some hash => bytesOfHex hash.toList = bytesOfHex (secretHash K secret).toList
  | _, _ => false

section Secrets

variable {K : Crypto} {secret : Option String}

theorem secretHash_ne (hK : K.Lawful) (text : String) : secretHash K text ≠ "" := by
  intro h
  have hbytes := bytesOfHex_hexOfBytes (K.sha256 text)
  rw [secretHash, String.ofList_eq] at h
  rw [h] at hbytes
  exact hK.sha256_ne_nil text hbytes.symm

/-- Only the polling secret itself matches its hash. -/
theorem matchesSecret_hash (hK : K.Lawful) {text : String}
    (h : matchesSecret K secret (some (secretHash K text))) :
    secret = some text := by
  unfold matchesSecret at h
  rcases hs : truthy secret with _ | given
  · simp [hs] at h
  · obtain ⟨rfl, -⟩ := truthy_eq_some.1 hs
    simp only [hs, decide_eq_true_eq, secretHash, String.toList_ofList, bytesOfHex_hexOfBytes] at h
    rw [hK.sha256_injective h]

theorem matchesSecret_self (K : Crypto) {text : String} (h : text ≠ "") :
    matchesSecret K (some text) (some (secretHash K text)) = true := by
  have htruthy : truthy (some text) = some text := truthy_eq_some.2 ⟨rfl, h⟩
  simp [matchesSecret, htruthy]

end Secrets

/-- A `Crypto` that meets the laws. -/
def plainCrypto : Crypto where
  sha256 text := 0 :: text.toByteArray.data.toList
  hashPassword salt text := String.ofList (text.toList ++ '$' :: salt.toList)
  verifyPassword text hash := (text.toList ++ ['$']).isPrefixOf hash.toList
  encryptString _ text info := String.ofList (info.toList ++ text.toList)
  decryptString text info := some (String.ofList (text.toList.drop info.toList.length))

theorem plainCrypto_lawful : plainCrypto.Lawful where
  sha256_injective a b h := by
    have hdata : a.toByteArray.data = b.toByteArray.data := Array.toList_inj.1 (List.cons.inj h).2
    exact String.toByteArray_inj.1 (ByteArray.ext hdata)
  sha256_ne_nil _ := List.cons_ne_nil _ _
  verify_hash salt text := by simp [plainCrypto, List.isPrefixOf_iff_prefix]
  decrypt_encrypt _ text _ := by simp [plainCrypto]

/-! ### Repository -/

/-- A write to the tables of a schema. -/
def write (schema : String) (f : Schema → Except String Schema) : Tx Db Unit :=
  exec fun db => (f (db.schemas schema)).map fun t =>
    { db with schemas := Function.update db.schemas schema t }

def getPairingCode : Tx Db (Option PairingCode) := query Db.pairing_code

def findKiosk (db : Db) (schema id : String) : Option Kiosk :=
  (db.schemas schema).kiosks.find? fun k => k.id = id

def getKioskById (schema id : String) : Tx Db (Option Kiosk) := query fun db => findKiosk db schema id

def getKioskByName (schema name : String) : Tx Db (Option Kiosk) :=
  query fun db => (db.schemas schema).kiosks.find? fun k => k.name = name

def updateKiosk (schema id : String) (f : Kiosk → Kiosk) : Tx Db Unit :=
  write schema fun t => .ok { t with kiosks := t.kiosks.map fun k => if k.id = id then f k else k }

def createKiosk (schema : String) (kiosk : Kiosk) : Tx Db Unit :=
  write schema fun t =>
    if t.kiosks.any fun k => k.id = kiosk.id ∨ k.name = kiosk.name then .error "duplicate key value"
    else .ok { t with kiosks := t.kiosks ++ [kiosk] }

def createDisplayForKiosk (schema : String) (display : Display) : Tx Db Unit :=
  write schema fun t =>
    if t.displays.any fun d => d.id = display.id then .error "duplicate key value"
    else .ok { t with displays := t.displays ++ [display] }

/-- The id of the label `name`, which is created under `freshId` if there is none. -/
def ensureLabel (schema name freshId : String) : Tx Db String := do
  let found ← query fun db => (db.schemas schema).labels.find? fun l => l.name = name
  match found with
  | some l => return l.id
  | none =>
    write schema fun t =>
      if t.labels.any fun l => l.id = freshId then .error "duplicate key value"
      else .ok { t with labels := t.labels ++ [⟨freshId, name⟩] }
    return freshId

def attachKioskLabel (schema kioskId labelId role : String) : Tx Db Unit :=
  write schema fun t =>
    .ok (if (kioskId, labelId, role) ∈ t.kiosk_labels then t
      else { t with kiosk_labels := t.kiosk_labels ++ [(kioskId, labelId, role)] })

/-- The code is used, by this kiosk. -/
def PairingCode.consume (pc : PairingCode) (now : Nat) (kioskId : String) (extras : Extras) : PairingCode :=
  { pc with consumed_at := some (.at now), consumed_by_kiosk_id := some kioskId, extras }

/-- `UPDATE … WHERE code = ? AND consumed_at IS NULL`, which must change one row. -/
def markPairingCodeClaimed (now : Nat) (kioskId : String) (extras : Extras) : Tx Db Unit :=
  exec fun db =>
    match db.pairing_code with
    | some pc =>
      if pc.consumed_at.isSome then .error "pairing code already used"
      else .ok { db with pairing_code := some (pc.consume now kioskId extras) }
    | none => .error "pairing code already used"

def updatePairingCodeExtras (extras : Extras) : Tx Db Unit :=
  exec fun db => .ok { db with pairing_code := db.pairing_code.map fun pc => { pc with extras } }

/-! ### Initiating -/

structure PairingInitiateInput where
  proposedName : Option String
  hardwareModel : Option String
  firmwareTarget : Option String
  capabilities : List String
  managedImage : Bool
  codeTtlSeconds : Nat
  secureClaim : Bool

/-- The polling secret the device gets, out of the random text `secret`. -/
def PairingInitiateInput.pollingSecret (input : PairingInitiateInput) (secret : String) : Option String :=
  if input.secureClaim then some secret else none

/-- The row `initiatePairing` inserts under `code`. -/
def initiatedRow (K : Crypto) (code : String) (input : PairingInitiateInput) (now : Nat) (secret : String) :
    PairingCode where
  code := code
  kiosk_proposed_name := input.proposedName
  kiosk_hardware_model := input.hardwareModel
  kiosk_firmware_target := input.firmwareTarget
  kiosk_capabilities := input.capabilities
  expires_at := .at (now + input.codeTtlSeconds * 1000)
  consumed_at := none
  consumed_by_kiosk_id := none
  extras :=
    { managed_image := input.managedImage,
      polling_secret_hash := (truthy (input.pollingSecret secret)).map (secretHash K),
      pairing_claim_encrypted := none, kiosk_key_plaintext := none, encrypt_key := none, cluster_key := none,
      demo := false, claim_expires_at := none, confirmation_request := none, tenant_id := none,
      tenant_slug := none, tenant_schema := none, acknowledged_at := none }

/-- `code` is drawn again as long as there is a row of that code. -/
def initiatePairing (K : Crypto) (code : String) (input : PairingInitiateInput) (now : Nat) (secret : String)
    (db : Db) : Option Db :=
  match db.pairing_code with
  | some _ => none
  | none => some { db with pairing_code := some (initiatedRow K code input now secret) }

/-! ### Confirming -/

structure Tenant where
  id : String
  slug : String
  schemaName : String

/-- What an administrator confirms. -/
structure PairingConfirmInput where
  demo : Bool
  code : String
  nameOverride : Option String
  initialLabels : Option (List String)
  replaceKioskId : Option String
  force : Bool
  tenant : Option Tenant

/-- Without a tenant the kiosk goes to the shared schema. -/
def PairingConfirmInput.schema (input : PairingConfirmInput) : String :=
  (input.tenant.map Tenant.schemaName).getD "public"

/-- `JSON.stringify({ replaceKioskId, nameOverride, initialLabels })`. -/
def PairingConfirmInput.request (input : PairingConfirmInput) : String :=
  Json.stringify (.obj [("replaceKioskId", Json.ofOption .str input.replaceKioskId),
    ("nameOverride", Json.ofOption .str input.nameOverride),
    ("initialLabels", .arr ((input.initialLabels.getD []).map .str))])

/-- The random bytes and the ids a confirmation draws. -/
structure Fresh where
  keyBytes : String
  salt : String
  encryptKey : String
  kioskIv : String
  claimIv : String
  kioskId : String
  displayId : String
  labelIds : List String

def Fresh.kioskKey (fresh : Fresh) : String := "bf-" ++ fresh.keyBytes

/-- `JSON.stringify({ kioskKey, encryptKey })`. -/
def claimText (kioskKey encryptKey : String) : String :=
  Json.stringify (.obj [("kioskKey", .str kioskKey), ("encryptKey", .str encryptKey)])

/-- In what the device that asks differs from the kiosk it is to replace. -/
def mismatches (existing : Kiosk) (pc : PairingCode) : List String :=
  let newManaged := pc.extras.managed_image
  let lostCaps := existing.capabilities.filter fun c => c ∉ pc.kiosk_capabilities
  (match truthy existing.hardware_model, truthy pc.kiosk_hardware_model with
    | some old, some new => if old ≠ new then ["hardware_model: " ++ old ++ " → " ++ new] else []
    | _, _ => []) ++
  (if existing.managed_image ≠ newManaged then
    ["managed_image: " ++ toString existing.managed_image ++ " → " ++ toString newManaged] else []) ++
  (if lostCaps ≠ [] then ["lost capabilities: " ++ ", ".intercalate lostCaps] else [])

section Confirm

variable (K : Crypto) (now : Nat) (fresh : Fresh) (input : PairingConfirmInput)

/-- The confirmation of a code that is already consumed. -/
def confirmAgain (pc : PairingCode) : Tx Db (String × String) :=
  if pc.extras.demo ≠ input.demo ∨ pc.extras.tenant_schema ≠ some input.schema ∨
      pc.extras.confirmation_request ≠ some input.request then
    throw "pairing code already used"
  else
    match pc.consumed_by_kiosk_id with
    | none => throw "paired kiosk no longer exists"
    | some id => do
      match ← getKioskById input.schema id with
      | none => throw "paired kiosk no longer exists"
      | some kiosk => return (kiosk.id, kiosk.name)

def kioskKeyHash : String := K.hashPassword fresh.salt fresh.kioskKey

def kioskKeyPrefix : String := String.ofList (fresh.kioskKey.toList.take 8)

/-- Rekeys the kiosk that the device replaces. -/
def replaceKiosk (pc : PairingCode) (id : String) : Tx Db (String × String) := do
  match ← getKioskById input.schema id with
  | none => throw "replacement target kiosk not found"
  | some existing =>
    if !input.force && mismatches existing pc ≠ [] then
      throw ("replacement device differs from existing kiosk — " ++
        "; ".intercalate (mismatches existing pc) ++
        ". Re-submit with \"force replace\" to override.")
    else
      updateKiosk input.schema existing.id fun k => { k with
        key_hash := kioskKeyHash K fresh
        key_prefix := kioskKeyPrefix fresh
        capabilities := pc.kiosk_capabilities
        hardware_model := pc.kiosk_hardware_model
        firmware_target := pc.kiosk_firmware_target }
      (if existing.managed_image ≠ pc.extras.managed_image then
        updateKiosk input.schema existing.id fun k => { k with managed_image := pc.extras.managed_image }
      else pure ())
      return (existing.id, existing.name)

/-- Tries `candidate`, and after it the base name with the suffixes up to 99. -/
def freeName (schema base candidate : String) : Nat → Nat → Tx Db String
  | 0, _ => throw "could not generate unique kiosk name"
  | n + 1, suffix => do
    match ← getKioskByName schema candidate with
    | none => return candidate
    | some _ =>
      if 100 < suffix + 1 then throw "could not generate unique kiosk name"
      else freeName schema base (base ++ "-" ++ toString suffix) n (suffix + 1)

/-- The labels of the input, found or created. -/
def attachLabels (kioskId : String) : List String → List String → Tx Db Unit
  | [], _ => pure ()
  | name :: names, ids =>
    if trim name = "" then attachLabels kioskId names ids
    else do
      let labelId ← ensureLabel input.schema (trim name).toLower (ids.headD "")
      attachKioskLabel input.schema kioskId labelId "consume"
      attachLabels kioskId names ids.tail

/-- Creates a kiosk for the device. -/
def newKiosk (pc : PairingCode) : Tx Db (String × String) := do
  let baseName := ((truthy input.nameOverride).orElse fun _ => truthy pc.kiosk_proposed_name).getD
    ("kiosk-" ++ input.code.toLower)
  let candidate ← freeName input.schema baseName baseName 99 2
  createKiosk input.schema
    { id := fresh.kioskId, name := candidate, key_hash := kioskKeyHash K fresh,
      key_prefix := kioskKeyPrefix fresh,
      capabilities := pc.kiosk_capabilities, hardware_model := pc.kiosk_hardware_model,
      firmware_target := pc.kiosk_firmware_target, managed_image := pc.extras.managed_image, enabled := true,
      encrypt_key_encrypted := none }
  createDisplayForKiosk input.schema ⟨fresh.displayId, candidate ++ ": HDMI-0", fresh.kioskId⟩
  attachLabels input fresh.kioskId (input.initialLabels.getD []) fresh.labelIds
  return (fresh.kioskId, candidate)

/-- The `extras` of a code that this confirmation consumes. -/
def claimedExtras (extras : Extras) : Extras :=
  { extras with
    pairing_claim_encrypted :=
      some (K.encryptString fresh.claimIv (claimText fresh.kioskKey fresh.encryptKey) "pairing-claim")
    demo := input.demo
    claim_expires_at := some (.at (now + DELIVERY_GRACE_MS))
    confirmation_request := some input.request
    tenant_id := some ((input.tenant.map Tenant.id).getD "default")
    tenant_slug := some ((input.tenant.map Tenant.slug).getD "default")
    tenant_schema := some input.schema }

/-- Id and name of the kiosk the device becomes. -/
def adoptKiosk (pc : PairingCode) : Tx Db (String × String) :=
  match input.replaceKioskId with
  | some id => replaceKiosk K fresh input pc id
  | none => newKiosk K fresh input pc

/-- The first confirmation of a code. -/
def confirmFresh (pc : PairingCode) : Tx Db (String × String) := do
  let kiosk ← adoptKiosk K fresh input pc
  updateKiosk input.schema kiosk.1 fun k => { k with
    encrypt_key_encrypted := some (K.encryptString fresh.kioskIv fresh.encryptKey "kiosk-encrypt") }
  markPairingCodeClaimed now kiosk.1 (claimedExtras K now fresh input pc.extras)
  return kiosk

/-- A confirmation: the code is checked and consumed, the kiosk created or taken over. -/
def confirmBody : Tx Db (String × String) := do
  match ← getPairingCode with
  | none => throw "pairing code not found"
  | some pc =>
    if pc.consumed_at.isSome then confirmAgain input pc
    else if pc.expires_at.remaining now |>.any (· < 0) then throw "pairing code expired"
    else confirmFresh K now fresh input pc

/-- Kiosk id and kiosk name, or the error, and the database after the transaction. -/
def confirmPairing (budget : Option Nat) (db : Db) : Except String (String × String) × Db :=
  transact (confirmBody K now fresh input) budget db

end Confirm

/-! ### Claiming -/

inductive Status where
  | pending
  | claimed
  | expired
  | failed
  | acknowledged
  | revoked
deriving DecidableEq

/-- The answer to a claim. -/
structure PairingClaimResult where
  status : Status
  expiresInSeconds : Option Int
  kioskId : Option String
  kioskName : Option String
  kioskKey : Option String
  encryptKey : Option String
  demo : Bool
deriving DecidableEq

/-- A result without credentials. -/
def PairingClaimResult.bare (status : Status) (expiresInSeconds : Option Int) : PairingClaimResult :=
  ⟨status, expiresInSeconds, none, none, none, none, false⟩

/-- What `claimPairing` holds while it awaits the kiosk. -/
structure Delivery where
  remaining : Int
  kioskId : String
  schema : String
  kioskKey : String
  encryptKey : Option String
  demo : Bool
deriving DecidableEq

/-- `Math.ceil(remaining / 1000)`. -/
def ceilSeconds (remaining : Int) : Int := -(-remaining / 1000)

/-- The credentials a consumed row holds, and nothing if they cannot be read. -/
def readClaim (K : Crypto) (extras : Extras) : Option (Option String × Option String) :=
  match extras.pairing_claim_encrypted with
  | some text =>
    match (K.decryptString text "pairing-claim").bind Json.parse with
    | none | some .null => none
    | some parsed =>
      some ((parsed.get? "kioskKey").bind Json.asStr?, (parsed.get? "encryptKey").bind Json.asStr?)
  | none => some (extras.kiosk_key_plaintext, extras.encrypt_key)

/-- From the row to the await of the kiosk, or to the answer. -/
def claimCheck (K : Crypto) (now : Nat) (secret : Option String) : Option PairingCode →
    PairingClaimResult ⊕ Delivery
  | none => .inl (.bare .expired none)
  | some pc =>
    if (truthy pc.extras.polling_secret_hash).isSome &&
      !matchesSecret K secret pc.extras.polling_secret_hash then
      .inl (.bare .failed none)
    else if pc.extras.acknowledged_at.isSome then .inl (.bare .acknowledged none)
    else
      match ((if pc.consumed_at.isSome then pc.extras.claim_expires_at.getD pc.expires_at
        else pc.expires_at).remaining now) with
      | none => .inl (.bare .failed none)
      | some remaining =>
        if remaining ≤ 0 then .inl (.bare .expired none)
        else if pc.consumed_at.isNone then .inl (.bare .pending (some (ceilSeconds remaining)))
        else
          match readClaim K pc.extras with
          | none => .inl (.bare .failed none)
          | some (kioskKey, encryptKey) =>
            match truthy kioskKey, truthy pc.consumed_by_kiosk_id with
            | some kioskKey, some kioskId =>
              .inr ⟨remaining, kioskId, pc.extras.tenant_schema.getD "public", kioskKey, encryptKey,
                pc.extras.demo⟩
            | _, _ => .inl (.bare .failed none)

/-- From the kiosk to the answer. -/
def claimAnswer (d : Delivery) : Option Kiosk → PairingClaimResult
  | none => .bare .revoked none
  | some kiosk =>
    if kiosk.enabled = false then .bare .revoked none
    else ⟨.claimed, some (ceilSeconds d.remaining), some d.kioskId, some kiosk.name, some d.kioskKey,
      d.encryptKey, d.demo⟩

/-! ### Acknowledging -/

/-- The envelope and what it was for are dropped. -/
def acknowledgedExtras (extras : Extras) (now : Nat) : Extras :=
  { extras with
    acknowledged_at := some (.at now)
    pairing_claim_encrypted := none
    kiosk_key_plaintext := none
    cluster_key := none
    encrypt_key := none }

/-- An acknowledgement of the device that holds the code. -/
def acknowledgeBody (K : Crypto) (now : Nat) (kioskId schemaName : String) (secret : Option String) :
    Tx Db Unit := do
  match ← getPairingCode with
  | none => throw "pairing session does not belong to device"
  | some pc =>
    if pc.consumed_by_kiosk_id ≠ some kioskId ∨ pc.extras.tenant_schema.getD "public" ≠ schemaName then
      throw "pairing session does not belong to device"
    else if (truthy pc.extras.polling_secret_hash).isSome &&
      !matchesSecret K secret pc.extras.polling_secret_hash then
      throw "invalid pairing session secret"
    else updatePairingCodeExtras (acknowledgedExtras pc.extras now)

def acknowledgePairing (K : Crypto) (now : Nat) (kioskId schemaName : String) (secret : Option String)
    (budget : Option Nat) (db : Db) : Except String Unit × Db :=
  transact (acknowledgeBody K now kioskId schemaName secret) budget db

end Pairing
