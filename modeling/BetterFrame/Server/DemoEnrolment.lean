import BetterFrame.Lib.Run
import BetterFrame.Lib.Sessions
import BetterFrame.Server.Pairing
import Mathlib.Data.List.Pairwise
import Mathlib.Data.List.Sort

/-!
# Demo enrolment

`prepareDemo`, `enrollDemo` and `cleanupDemo` of `shared/demo.ts` with the part of `confirmPairing`
that an enrolment runs, called by any number of sessions. A step is one statement of a session,
which sees what is committed then (read committed). A transaction keeps its writes until its last
step commits them, and holds until then the locks it took; a session whose next statement needs a
lock of another session has no step. `enrolment_limits` is about every order of such steps.
-/

namespace DemoEnrolment

open Pairing (Crypto PairingCode PairingConfirmInput Fresh matchesSecret)

def DEMO_SLUG : String := "demo"

/-- `tenantSchemaName(DEMO_SLUG)` -/
def DEMO_SCHEMA : String := "tenant_demo"

structure Tenant where
  id : String
  slug : String
  schema_name : String
  is_active : Bool
  max_kiosks : Option Int
deriving DecidableEq

/-- A row of `kiosks`, with the schema it is in. -/
structure Kiosk where
  schema : String
  row : Pairing.Kiosk
  paired_at : Nat
  last_seen_at : Option Nat
deriving DecidableEq

/-- The tables that a demo touches. -/
structure Db where
  tenants : List Tenant
  /-- `extras.demo_tenant_id` of `setup_state` -/
  demo_tenant_id : Option String
  codes : String → Option PairingCode
  kiosks : List Kiosk

def Db.tenant (db : Db) (id : String) : Option Tenant := db.tenants.find? fun t => t.id = id

def Db.kiosksOf (db : Db) (schema : String) : List Kiosk := db.kiosks.filter fun k => k.schema = schema

def Db.kiosk (db : Db) (schema id : String) : Option Kiosk :=
  (db.kiosksOf schema).find? fun k => k.row.id = id

def Db.count (db : Db) (schema : String) : Nat := (db.kiosksOf schema).length

/-- The two rows cannot both be in `tenants`. -/
def Tenant.conflicts (a b : Tenant) : Prop := a.id = b.id ∨ a.slug = b.slug ∨ a.schema_name = b.schema_name

instance : DecidableRel Tenant.conflicts := fun _ _ => inferInstanceAs (Decidable (_ ∨ _ ∨ _))

/-- What a session can hold. -/
inductive Lock where
  /-- `pg_advisory_xact_lock(1642060916)` -/
  | advisory
  | tenant (id : String)
  | code (code : String)
  | kiosk (schema id : String)
deriving DecidableEq

/-- What a statement may draw: the time, the id of a tenant, and what a confirmation draws. -/
structure Draw where
  now : Nat
  tenantId : String
  fresh : Fresh

/-! ### prepareDemo -/

/-- Where `prepareDemo` is, and what it has read. -/
inductive Preparing where
  /-- Awaits the advisory lock. -/
  | begun
  | locked
  | marked (id : String)
  | unmarked
  /-- There is no tenant of the reserved slug. -/
  | unreserved
  /-- The tenant is inserted, and the transaction not committed. -/
  | inserted (tenant : Tenant)
  | done (outcome : Except String (Option Tenant))
deriving DecidableEq

/-- `repo.createTenant({ name: "Demo", slug: DEMO_SLUG, max_kiosks: 1000 })` -/
def demoTenant (id : String) : Tenant := ⟨id, DEMO_SLUG, DEMO_SCHEMA, true, some 1000⟩

/-- The database after the transaction of a `prepareDemo` that created `tenant`. -/
def Db.prepared (db : Db) (tenant : Tenant) : Db :=
  { db with tenants := db.tenants ++ [tenant], demo_tenant_id := some tenant.id }

/-- The next statement of a preparation, unless its lock is held elsewhere. -/
def Preparing.step (held : Lock → Bool) (draw : Draw) (db : Db) : Preparing → Option (Preparing × Db)
  | .begun => if held .advisory then none else some (.locked, db)
  | .locked =>
    match db.demo_tenant_id with
    | some id => some (.marked id, db)
    | none => some (.unmarked, db)
  | .marked id =>
    match db.tenant id with
    | some existing => some (.done (.ok (if existing.is_active then some existing else none)), db)
    | none => some (.unmarked, db)
  | .unmarked =>
    if db.tenants.any fun t => t.slug = DEMO_SLUG then
      some (.done (.error "Reserved demo tenant slug is already in use"), db)
    else some (.unreserved, db)
  | .unreserved =>
    if db.tenants.any fun t => (demoTenant draw.tenantId).conflicts t then
      some (.done (.error "duplicate key value"), db)
    else some (.inserted (demoTenant draw.tenantId), db)
  | .inserted tenant => some (.done (.ok (some tenant)), db.prepared tenant)
  | .done _ => none

def Preparing.locks : Preparing → List Lock
  | .begun | .done _ => []
  | _ => [.advisory]

/-! ### enrollDemo -/

deriving instance DecidableEq for Fresh

/-- Where `enrollDemo` is, and what it has read. -/
inductive Enrolling where
  | begun
  | marked (id : String)
  | found (tenant : Tenant)
  /-- The tenant's row is locked. -/
  | locked (tenant : Tenant) (max_kiosks : Option Int)
  /-- The code's row is locked. -/
  | coded (tenant : Tenant) (max_kiosks : Option Int) (pc : PairingCode)
  /-- Calls `confirmPairing`. -/
  | confirming (tenant : Tenant)
  /-- The code is consumed by the same operation. -/
  | again (tenant : Tenant) (kioskId : Option String)
  /-- Tries the name of the given number. -/
  | naming (tenant : Tenant) (pc : PairingCode) (number : Nat)
  | named (tenant : Tenant) (pc : PairingCode) (name : String)
  /-- The kiosk is inserted, and the transaction not committed. -/
  | created (tenant : Tenant) (pc : PairingCode) (fresh : Fresh) (kiosk : Kiosk)
  /-- With the id of the kiosk that `confirmPairing` returned. -/
  | done (outcome : Except String String)
deriving DecidableEq

/-- The input of the `confirmPairing` that an enrolment calls. -/
def Tenant.input (tenant : Tenant) (code : String) : PairingConfirmInput where
  demo := true
  code := code
  nameOverride := none
  initialLabels := none
  replaceKioskId := none
  force := false
  tenant := some ⟨tenant.id, tenant.slug, tenant.schema_name⟩

/-- The input of an operator who pairs a kiosk of the tenant. -/
def Tenant.operatorInput (tenant : Tenant) (code : String) : PairingConfirmInput :=
  { tenant.input code with demo := false }

/-- The base name for 1, after it the base name with the numbers from 2 on. -/
def candidate (code : String) (pc : PairingCode) (number : Nat) : String :=
  let baseName := (Text.truthy pc.kiosk_proposed_name).getD ("kiosk-" ++ code.toLower)
  if number = 1 then baseName else baseName ++ "-" ++ toString number

section

variable (K : Crypto)

/-- The row of a kiosk that has just enrolled. -/
def newKiosk (tenant : Tenant) (pc : PairingCode) (fresh : Fresh) (name : String) (now : Nat) : Kiosk where
  schema := tenant.schema_name
  row :=
    { id := fresh.kioskId, name, key_hash := Pairing.kioskKeyHash K fresh,
      key_prefix := Pairing.kioskKeyPrefix fresh,
      capabilities := pc.kiosk_capabilities, hardware_model := pc.kiosk_hardware_model,
      firmware_target := pc.kiosk_firmware_target,
      managed_image := pc.extras.managed_image, enabled := true
      encrypt_key_encrypted := some (K.encryptString fresh.kioskIv fresh.encryptKey "kiosk-encrypt") }
  paired_at := now
  last_seen_at := none

/-- The database after a transaction that created `kiosk` for `code`. -/
def Db.enrolled (db : Db) (kiosk : Kiosk) (code : String) (pc : PairingCode) : Db :=
  { db with kiosks := db.kiosks ++ [kiosk], codes := Function.update db.codes code (some pc) }

/-- The next statement of an enrolment, unless its lock is held elsewhere. -/
def Enrolling.step (held : Lock → Bool) (draw : Draw) (db : Db) (code : String) (secret : Option String) :
    Enrolling → Option (Enrolling × Db)
  | .begun =>
    match db.demo_tenant_id with
    | some id => some (.marked id, db)
    | none => some (.done (.error "Demo unavailable"), db)
  | .marked id =>
    match db.tenant id with
    | some tenant => some (if tenant.is_active then .found tenant else .done (.error "Demo unavailable"), db)
    | none => some (.done (.error "Demo unavailable"), db)
  | .found tenant =>
    if held (.tenant tenant.id) then none
    else
      match db.tenant tenant.id with
      | some current =>
        some (if current.is_active then .locked tenant current.max_kiosks
          else .done (.error "Demo unavailable"), db)
      | none => some (.done (.error "Demo unavailable"), db)
  | .locked tenant max_kiosks =>
    if held (.code code) then none
    else
      match db.codes code with
      | some pc =>
        some (if matchesSecret K secret pc.extras.polling_secret_hash then .coded tenant max_kiosks pc
          else .done (.error "Invalid demo pairing session"), db)
      | none => some (.done (.error "Invalid demo pairing session"), db)
  | .coded tenant max_kiosks pc =>
    if pc.consumed_at.isNone ∧ max_kiosks.any (· ≤ (db.count tenant.schema_name : Int)) then
      some (.done (.error "Demo capacity reached"), db)
    else some (.confirming tenant, db)
  | .confirming tenant =>
    match db.codes code with
    | some pc =>
      if pc.consumed_at.isSome then
        if pc.extras.demo ≠ true ∨ pc.extras.tenant_schema ≠ some tenant.schema_name ∨
            pc.extras.confirmation_request ≠ some (tenant.input code).request then
          some (.done (.error "pairing code already used"), db)
        else some (.again tenant pc.consumed_by_kiosk_id, db)
      else if (pc.expires_at.remaining draw.now).any (· < 0) then
        some (.done (.error "pairing code expired"), db)
      else some (.naming tenant pc 1, db)
    | none => some (.done (.error "pairing code not found"), db)
  | .again tenant kioskId =>
    match kioskId.bind (db.kiosk tenant.schema_name) with
    | some kiosk => some (.done (.ok kiosk.row.id), db)
    | none => some (.done (.error "paired kiosk no longer exists"), db)
  | .naming tenant pc number =>
    if (db.kiosksOf tenant.schema_name).any fun k => k.row.name = candidate code pc number then
      -- the suffix of the next candidate is the number after this one
      some (if 100 < number + 2 then .done (.error "could not generate unique kiosk name")
        else .naming tenant pc (number + 1), db)
    else some (.named tenant pc (candidate code pc number), db)
  | .named tenant pc name =>
    if (db.kiosksOf tenant.schema_name).any fun k => k.row.id = draw.fresh.kioskId ∨ k.row.name = name then
      some (.done (.error "duplicate key value"), db)
    else some (.created tenant pc draw.fresh (newKiosk K tenant pc draw.fresh name draw.now), db)
  | .created tenant pc fresh kiosk =>
    if (db.codes code).any fun pc => pc.consumed_at.isNone then
      some (.done (.ok kiosk.row.id), db.enrolled kiosk code
        (pc.consume draw.now kiosk.row.id
          (Pairing.claimedExtras K draw.now fresh (tenant.input code) pc.extras)))
    else some (.done (.error "pairing code already used"), db)
  | .done _ => none

def Enrolling.locks (code : String) : Enrolling → List Lock
  | .begun | .marked _ | .found _ | .done _ => []
  | .locked tenant _ => [.tenant tenant.id]
  | .coded tenant _ _ | .confirming tenant | .again tenant _ | .naming tenant _ _ | .named tenant _
      _ | .created tenant _ _ _ =>
    [.tenant tenant.id, .code code]

/-! ### cleanupDemo -/

/-- Where `cleanupDemo` is, and what it has read. -/
inductive Cleaning where
  | begun
  | marked (id : String)
  | found (tenant : Tenant)
  /-- The rows are locked. -/
  | locked (tenant : Tenant) (ids : List String)
  | done (outcome : Except String Nat)
deriving DecidableEq

/-- `paired_at <= ? OR COALESCE(last_seen_at, paired_at) <= ?` -/
def Kiosk.stale (now : Nat) (k : Kiosk) : Bool :=
  k.paired_at + 86400000 ≤ now || k.last_seen_at.getD k.paired_at + 300000 ≤ now

/-- `ORDER BY paired_at LIMIT 100 FOR UPDATE SKIP LOCKED` -/
def Db.stale (db : Db) (held : Lock → Bool) (schema : String) (now : Nat) : List String :=
  ((((db.kiosksOf schema).filter fun k => k.stale now && !held (.kiosk schema k.row.id)).insertionSort
    fun a b => a.paired_at ≤ b.paired_at).take 100).map fun k => k.row.id

def Db.deleteKiosks (db : Db) (schema : String) (ids : List String) : Db :=
  { db with kiosks := db.kiosks.filter fun k => ¬ (k.schema = schema ∧ k.row.id ∈ ids) }

/-- The next statement of a cleanup, unless its lock is held elsewhere. -/
def Cleaning.step (held : Lock → Bool) (db : Db) (now : Nat) : Cleaning → Option (Cleaning × Db)
  | .begun =>
    match db.demo_tenant_id with
    | some id => some (.marked id, db)
    | none => some (.done (.ok 0), db)
  | .marked id =>
    match db.tenant id with
    | some tenant => some (.found tenant, db)
    | none => some (.done (.ok 0), db)
  | .found tenant => some (.locked tenant (db.stale held tenant.schema_name now), db)
  | .locked tenant ids => some (.done (.ok ids.length), db.deleteKiosks tenant.schema_name ids)
  | .done _ => none

def Cleaning.locks : Cleaning → List Lock
  | .locked tenant ids => ids.map (.kiosk tenant.schema_name)
  | _ => []

/-! ### Sessions -/

/-- A call and its phase. -/
inductive Call where
  | prepareDemo (phase : Preparing)
  | enrollDemo (code : String) (secret : Option String) (phase : Enrolling)
  | cleanupDemo (now : Nat) (phase : Cleaning)
deriving DecidableEq

def Call.locks : Call → List Lock
  | .prepareDemo phase => phase.locks
  | .enrollDemo code _ phase => phase.locks code
  | .cleanupDemo _ phase => phase.locks

/-- The tenant that a session has inserted and not committed. -/
def Call.pending : Call → Option Tenant
  | .prepareDemo (.inserted tenant) => some tenant
  | _ => none

/-- The calls there are. -/
inductive Op where
  | prepareDemo (enabled : Bool)
  | enrollDemo (enabled : Bool) (code : String) (secret : Option String)
  | cleanupDemo (now : Nat)

/-- A call starts; without the demo feature it is over at once. -/
def Op.call : Op → Call
  | .prepareDemo enabled => .prepareDemo (if enabled then .begun else .done (.ok none))
  | .enrollDemo enabled code secret =>
    .enrollDemo code secret (if enabled then .begun else .done (.error "Demo unavailable"))
  | .cleanupDemo now => .cleanupDemo now .begun

def Call.step (held : Lock → Bool) (draw : Draw) (db : Db) : Call → Option (Call × Db)
  | .prepareDemo phase => (phase.step held draw db).map fun r => (.prepareDemo r.1, r.2)
  | .enrollDemo code secret phase =>
    (phase.step K held draw db code secret).map fun r => (.enrollDemo code secret r.1, r.2)
  | .cleanupDemo now phase => (phase.step held db now).map fun r => (.cleanupDemo now r.1, r.2)

/-- A call whose transaction is rolled back: the connection is lost, or a lock wait ends in a deadlock. -/
def Call.fail (text : String) : Call → Option Call
  | .prepareDemo (.done _) | .enrollDemo _ _ (.done _) | .cleanupDemo _ (.done _) => none
  | .prepareDemo _ => some (.prepareDemo (.done (.error text)))
  | .enrollDemo code secret _ => some (.enrollDemo code secret (.done (.error text)))
  | .cleanupDemo now _ => some (.cleanupDemo now (.done (.error text)))

/-- An enrolment that created a kiosk, and the database after its transaction. -/
structure Enrolment where
  code : String
  kiosk : String
  after : Db

/-- What the step of a call to `c` and `db` has enrolled. -/
def Call.enrols (c : Call) (db : Db) : Call → List Enrolment
  | .enrollDemo code _ (.created _ _ _ _) =>
    match c with
    | .enrollDemo _ _ (.done (.ok kiosk)) => [⟨code, kiosk, db⟩]
    | _ => []
  | _ => []

/-- The last three record what has been done: the tenants that `prepareDemo` created, those of
customers, and the enrolments. -/
structure State where
  db : Db
  sessions : List Call
  made : List String
  customers : List String
  enrolments : List Enrolment

def State.init : State := ⟨⟨[], none, fun _ => none, []⟩, [], [], [], []⟩

abbrev State.held (s : State) (i : Nat) : Lock → Bool := Sessions.held Call.locks s.sessions i

/-- Whether some session holds the lock. -/
def State.locked (s : State) (l : Lock) : Bool := s.sessions.any fun c => l ∈ c.locks

def Tenant.update (id : String) (is_active : Bool) (max_kiosks : Option Int) (t : Tenant) : Tenant :=
  if t.id = id then { t with is_active, max_kiosks } else t

def Db.updateTenant (db : Db) (id : String) (is_active : Bool) (max_kiosks : Option Int) : Db :=
  { db with tenants := db.tenants.map (Tenant.update id is_active max_kiosks) }

/-- A heartbeat of the kiosk. -/
def Db.seen (db : Db) (schema id : String) (now : Nat) : Db :=
  { db with kiosks := db.kiosks.map fun k =>
    if k.schema = schema ∧ k.row.id = id then { k with last_seen_at := some now } else k }

/-- What sessions, customers and time do. -/
inductive Label where
  | calls (op : Op)
  /-- The next statement of a session. -/
  | proceeds (i : Nat) (draw : Draw)
  | fails (i : Nat) (text : String)
  | createsCustomer (tenant : Tenant)
  /-- `updateTenant` -/
  | updatesTenant (id : String) (is_active : Bool) (max_kiosks : Option Int)
  /-- `initiatePairing` -/
  | initiates (code : String) (input : Pairing.PairingInitiateInput) (now : Nat) (secret : String)
  /-- An operator of the tenant `id` pairs a new kiosk. -/
  | pairs (id : String) (code : String) (kiosk : Pairing.Kiosk) (now : Nat) (fresh : Fresh)
  /-- A heartbeat -/
  | seen (schema id : String) (now : Nat)

def step (s : State) : Label → Option State
  | .calls op => some { s with sessions := s.sessions ++ [op.call] }
  | .proceeds i draw =>
    match s.sessions[i]? with
    | some c =>
      (c.step K (s.held i) draw s.db).map fun r =>
        { s with
          db := r.2
          sessions := s.sessions.set i r.1
          made := s.made ++ c.pending.toList.map Tenant.id
          enrolments := s.enrolments ++ r.1.enrols r.2 c }
    | none => none
  | .fails i text =>
    ((s.sessions[i]?).bind (Call.fail text)).map fun c => { s with sessions := s.sessions.set i c }
  | .createsCustomer tenant =>
    -- waits for a session that inserts a tenant of the same key
    if s.db.tenants.any tenant.conflicts ∨ s.sessions.any (fun c => c.pending.any tenant.conflicts) then none
    else some { s with
      db := { s.db with tenants := s.db.tenants ++ [tenant] }, customers := s.customers ++ [tenant.id] }
  | .updatesTenant id is_active max_kiosks =>
    if s.locked (.tenant id) then none else some { s with db := s.db.updateTenant id is_active max_kiosks }
  | .initiates code input now secret =>
    match s.db.codes code with
    | some _ => none
    | none =>
      some { s with db := { s.db with
        codes := Function.update s.db.codes code (some (Pairing.initiatedRow K code input now secret)) } }
  | .pairs id code kiosk now fresh =>
    match s.db.tenant id, s.db.codes code with
    | some tenant, some pc =>
      if tenant.id ∉ s.customers ∨ pc.consumed_at.isSome ∨ s.locked (.code code) then none
      else
        let extras := Pairing.claimedExtras K now fresh (tenant.operatorInput code) pc.extras
        some { s with
          db := s.db.enrolled ⟨tenant.schema_name, kiosk, now, none⟩ code
            (pc.consume now kiosk.id extras) }
    | _, _ => none
  | .seen schema id now =>
    if s.locked (.kiosk schema id) then none else some { s with db := s.db.seen schema id now }

/-! ### What demo enrolment is for -/

/-- The enrolment created a kiosk of the marked tenant, which was active, and did not exceed its limit. -/
def Enrolment.Within (e : Enrolment) : Prop :=
  ∃ tenant ∈ e.after.tenants, e.after.demo_tenant_id = some tenant.id ∧ tenant.is_active = true ∧
    (∃ k ∈ e.after.kiosksOf tenant.schema_name, k.row.id = e.kiosk) ∧
    ∀ max, tenant.max_kiosks = some max → (e.after.count tenant.schema_name : Int) ≤ max

/-- What holds of every state: one tenant is made and marked, and each of its kiosks was enrolled
once and within the limit. -/
structure State.Safe (s : State) : Prop where
  made_once : s.made.length ≤ 1
  marker : s.db.demo_tenant_id = s.made.head?
  not_customer : ∀ id ∈ s.made, id ∉ s.customers
  within : ∀ e ∈ s.enrolments, e.Within
  /-- A code enrols one kiosk. -/
  once : (s.enrolments.map Enrolment.code).Nodup
  /-- Each kiosk of the marked tenant is that of an enrolment of its own. -/
  traced : ∀ id tenant, s.db.demo_tenant_id = some id → s.db.tenant id = some tenant →
    ((s.db.kiosksOf tenant.schema_name).map fun k => k.row.id).Sublist (s.enrolments.map Enrolment.kiosk)

/-- The call returned without an error. -/
def Call.Succeeded : Call → Prop
  | .prepareDemo (.done (.ok _)) | .enrollDemo _ _ (.done (.ok _)) | .cleanupDemo _ (.done (.ok _)) => True
  | _ => False

/-- No operation touches a customer's tenant or its kiosks, and one that has not succeeded has
changed nothing. -/
structure State.Contained (s : State) : Prop where
  atomic : ∀ i draw s', step K s (.proceeds i draw) = some s' → s'.db = s.db ∨
    ∃ c, s'.sessions[i]? = some c ∧ c.Succeeded
  rolled_back : ∀ i text s', step K s (.fails i text) = some s' → s'.db = s.db
  customers : ∀ i draw s' tenant, step K s (.proceeds i draw) = some s' → tenant ∈ s.db.tenants →
    tenant ∈ s'.db.tenants ∧ (tenant.id ∈ s.customers →
      s'.db.kiosksOf tenant.schema_name = s.db.kiosksOf tenant.schema_name)

/-- How many statements a call for an enrolled code has ahead. -/
def Enrolling.ahead : Enrolling → Nat
  | .begun => 7
  | .marked _ => 6
  | .found _ => 5
  | .locked _ _ => 4
  | .coded _ _ _ => 3
  | .confirming _ => 2
  | .again _ _ => 1
  | _ => 0

/-- The session calls `enrollDemo` for a code that enrolled the kiosk of `e`, with the code's
secret, and the kiosk is still there. -/
structure State.Retries (s : State) (i : Nat) (e : Enrolment) (tenant : Tenant)
    (secret : Option String) (phase : Enrolling) : Prop where
  session : s.sessions[i]? = some (.enrollDemo e.code secret phase)
  unfinished : ∀ outcome, phase ≠ .done outcome
  enrolled : e ∈ s.enrolments
  secret : ∀ pc, s.db.codes e.code = some pc → matchesSecret K secret pc.extras.polling_secret_hash = true
  marked : s.db.demo_tenant_id = some tenant.id
  row : s.db.tenant tenant.id = some tenant
  active : tenant.is_active = true
  kiosk : ∃ k ∈ s.db.kiosksOf tenant.schema_name, k.row.id = e.kiosk

/-- A retry creates nothing, comes nearer to its end with every statement, and ends with the kiosk
it enrolled; it waits only for a session that has the row of the tenant or the code locked. -/
structure State.Served (s : State) : Prop where
  advances : ∀ i e tenant secret phase draw s', s.Retries K i e tenant secret phase →
    step K s (.proceeds i draw) = some s' → s'.db = s.db ∧ s'.enrolments = s.enrolments ∧
    (s'.sessions[i]? = some (.enrollDemo e.code secret (.done (.ok e.kiosk))) ∨
      ∃ phase', s'.Retries K i e tenant secret phase' ∧ phase'.ahead < phase.ahead)
  waits : ∀ i e tenant secret phase draw, s.Retries K i e tenant secret phase →
    step K s (.proceeds i draw) = none →
    s.held i (.tenant tenant.id) = true ∨ s.held i (.code e.code) = true

/-! ### Tables -/

section Tables

variable {K} {db : Db} {t u tenant : Tenant} {id schema code : String} {kiosk : Kiosk} {pc : PairingCode}

/-- No two tenants conflict. -/
def Db.Apart (db : Db) : Prop := db.tenants.Pairwise fun a b => ¬ a.conflicts b

theorem Tenant.conflicts.symm (h : t.conflicts u) : u.conflicts t := by
  rcases h with h | h | h
  · exact .inl h.symm
  · exact .inr (.inl h.symm)
  · exact .inr (.inr h.symm)

theorem Db.Apart.unique (h : db.Apart) (ht : t ∈ db.tenants) (hu : u ∈ db.tenants) (hc : t.conflicts u) :
    t = u := by
  by_contra hne
  have : Std.Symm fun a b : Tenant => ¬ a.conflicts b := ⟨fun _ _ h h' => h h'.symm⟩
  exact List.Pairwise.forall h ht hu hne hc

theorem Db.Apart.append (h : db.Apart) (hnew : ∀ u ∈ db.tenants, ¬ t.conflicts u) :
    (db.tenants ++ [t]).Pairwise fun a b => ¬ a.conflicts b := by
  rw [List.pairwise_append]
  refine ⟨h, List.pairwise_singleton _ _, fun a ha b hb hab => ?_⟩
  rw [List.mem_singleton.1 hb] at hab
  exact hnew a ha hab.symm

theorem Db.tenant_mem (h : db.tenant id = some t) : t ∈ db.tenants ∧ t.id = id :=
  ⟨List.mem_of_find?_eq_some h, by simpa using List.find?_some h⟩

theorem Db.Apart.tenant_eq (h : db.Apart) (ht : t ∈ db.tenants) : db.tenant t.id = some t := by
  rcases hu : db.tenant t.id with _ | u
  · have := List.find?_eq_none.1 hu t ht
    simp at this
  · obtain ⟨hmem, hid⟩ := Db.tenant_mem hu
    rw [h.unique hmem ht (.inl hid)]

theorem Db.tenant_append (h : db.tenant id = some t) (db' : Db) (hdb : db'.tenants = db.tenants ++ [u]) :
    db'.tenant id = some t := by
  rw [Db.tenant, hdb, List.find?_append, show db.tenants.find? _ = some t from h]
  rfl

section Update

variable {a : Bool} {m : Option Int}

@[simp] theorem Tenant.id_update : (t.update id a m).id = t.id := by
  unfold Tenant.update
  split <;> rfl

@[simp] theorem Tenant.schema_name_update : (t.update id a m).schema_name = t.schema_name := by
  unfold Tenant.update
  split <;> rfl

@[simp] theorem Tenant.slug_update : (t.update id a m).slug = t.slug := by
  unfold Tenant.update
  split <;> rfl

theorem Db.tenant_updateTenant {key : String} :
    (db.updateTenant id a m).tenant key = (db.tenant key).map (Tenant.update id a m) := by
  show (db.tenants.map (Tenant.update id a m)).find? _ = _
  rw [List.find?_map]
  simp [Db.tenant]

theorem Db.Apart.updateTenant (h : db.Apart) : (db.updateTenant id a m).Apart := by
  show (db.tenants.map (Tenant.update id a m)).Pairwise _
  rw [List.pairwise_map]
  simpa [Db.Apart, Tenant.conflicts] using h

end Update

@[simp] theorem Db.kiosksOf_prepared : (db.prepared t).kiosksOf schema = db.kiosksOf schema := rfl

theorem Db.kiosksOf_enrolled : (db.enrolled kiosk code pc).kiosksOf schema =
    db.kiosksOf schema ++ if kiosk.schema = schema then [kiosk] else [] := by
  simp only [Db.kiosksOf, Db.enrolled, List.filter_append, List.filter_singleton]
  split <;> simp_all

theorem Db.kiosksOf_deleteKiosks {ids : List String} : (db.deleteKiosks schema ids).kiosksOf id =
    (db.kiosksOf id).filter fun k => ¬ (k.schema = schema ∧ k.row.id ∈ ids) := by
  simp only [Db.kiosksOf, Db.deleteKiosks, List.filter_filter, Bool.and_comm]

theorem Db.kiosksOf_deleteKiosks_of_ne {ids : List String} (h : id ≠ schema) :
    (db.deleteKiosks schema ids).kiosksOf id = db.kiosksOf id := by
  rw [Db.kiosksOf_deleteKiosks, List.filter_eq_self]
  intro k hk
  have hschema : k.schema = id := by simpa [Db.kiosksOf] using (List.mem_filter.1 hk).2
  simp [hschema, h]

theorem Db.kiosksOf_seen {now : Nat} : ((db.seen schema id now).kiosksOf code).map (fun k => k.row.id) =
    (db.kiosksOf code).map fun k => k.row.id := by
  simp only [Db.kiosksOf, Db.seen, List.filter_map, List.map_map]
  have hfilter : ((fun k : Kiosk => decide (k.schema = code)) ∘
      fun k => if k.schema = schema ∧ k.row.id = id then { k with last_seen_at := some now }
          else k) = fun k => decide (k.schema = code) := by
    funext k
    simp only [Function.comp]
    split <;> rfl
  rw [hfilter]
  refine List.map_congr_left fun k _ => ?_
  simp only [Function.comp]
  split <;> rfl

end Tables

/-! ### What a session knows -/

/-- The tenant that a session has read is the marked one. -/
structure Marked (db : Db) (tenant : Tenant) : Prop where
  id : db.demo_tenant_id = some tenant.id
  schema : tenant.schema_name = DEMO_SCHEMA

/-- The row of the tenant is as the session has read it under the lock. -/
def Admits (db : Db) (tenant : Tenant) (max_kiosks : Option Int) : Prop :=
  ∃ row, db.tenant tenant.id = some row ∧ row.is_active = true ∧ row.max_kiosks = max_kiosks

/-- The demo tenant has room for one more kiosk. -/
def Room (db : Db) (max_kiosks : Option Int) : Prop := ∀ max, max_kiosks = some max →
  (db.count DEMO_SCHEMA : Int) < max

/-- The row of the code is as the session has read it, and if it is not consumed there is room for
one more kiosk. -/
def Admitted (db : Db) (tenant : Tenant) (code : String) (pc : PairingCode) : Prop :=
  db.codes code = some pc ∧ ∃ max, Admits db tenant max ∧ (pc.consumed_at = none → Room db max)

/-- What a preparation has read is still so. -/
def Preparing.Knows (db : Db) : Preparing → Prop
  | .begun | .locked | .done _ => True
  | .marked id => db.demo_tenant_id = some id
  | .unmarked | .unreserved => db.demo_tenant_id = none
  | .inserted tenant =>
    db.demo_tenant_id = none ∧ tenant.schema_name = DEMO_SCHEMA ∧ ∀ u ∈ db.tenants, ¬ tenant.conflicts u

/-- What an enrolment has read is still so. -/
def Enrolling.Knows (db : Db) (code : String) : Enrolling → Prop
  | .begun | .done _ => True
  | .marked id => db.demo_tenant_id = some id
  | .found tenant => Marked db tenant
  | .locked tenant max => Marked db tenant ∧ Admits db tenant max
  | .coded tenant max pc => Marked db tenant ∧ Admits db tenant max ∧ db.codes code = some pc
  | .confirming tenant => Marked db tenant ∧ ∃ pc, Admitted db tenant code pc
  | .again tenant kioskId =>
    Marked db tenant ∧ ∃ pc, db.codes code = some pc ∧ pc.consumed_at.isSome ∧
      pc.consumed_by_kiosk_id = kioskId
  | .naming tenant pc _ | .named tenant pc _ =>
    Marked db tenant ∧ Admitted db tenant code pc ∧ pc.consumed_at = none
  | .created tenant pc _ kiosk =>
    Marked db tenant ∧ Admitted db tenant code pc ∧ pc.consumed_at = none ∧ kiosk.schema = DEMO_SCHEMA

/-- What a cleanup has read is still so. -/
def Cleaning.Knows (db : Db) : Cleaning → Prop
  | .begun | .done _ => True
  | .marked id => db.demo_tenant_id = some id
  | .found tenant | .locked tenant _ => Marked db tenant

def Call.Knows (db : Db) : Call → Prop
  | .prepareDemo phase => phase.Knows db
  | .enrollDemo code _ phase => phase.Knows db code
  | .cleanupDemo _ phase => phase.Knows db

/-- The marker names a row, that of the demo tenant. -/
def Db.Pointed (db : Db) : Prop := ∀ id, db.demo_tenant_id = some id → ∃ t, db.tenant id = some t ∧
  t.schema_name = DEMO_SCHEMA

section Statements

variable {K} {held : Lock → Bool} {draw : Draw} {db db' : Db} {c c' : Call} {id : String} {tenant : Tenant}

theorem Db.Pointed.marked (h : db.Pointed) (hid : db.demo_tenant_id = some id)
    (ht : db.tenant id = some tenant) : Marked db tenant := by
  obtain ⟨t, hrow, hschema⟩ := h id hid
  rw [ht, Option.some.injEq] at hrow
  exact ⟨by rw [hid, (Db.tenant_mem ht).2], hrow ▸ hschema⟩

theorem Op.knows (op : Op) (db : Db) : op.call.Knows db ∧ op.call.locks = [] := by
  cases op with
  | prepareDemo enabled => cases enabled <;> exact ⟨trivial, rfl⟩
  | enrollDemo enabled code secret => cases enabled <;> exact ⟨trivial, rfl⟩
  | cleanupDemo now => exact ⟨trivial, rfl⟩

theorem Preparing.step_knows {p p' : Preparing} (hdb : db.Pointed)
    (h : p.step held draw db = some (p', db')) (hp : p.Knows db) :
    p'.Knows db := by
  cases p with
  | begun =>
    simp only [Preparing.step] at h
    split at h <;> cases h
    trivial
  | locked =>
    simp only [Preparing.step] at h
    split at h <;> cases h <;> assumption
  | marked id =>
    obtain ⟨t, ht, -⟩ := hdb id hp
    simp only [Preparing.step, ht, Option.some.injEq, Prod.mk.injEq] at h
    rw [← h.1]
    trivial
  | unmarked =>
    simp only [Preparing.step] at h
    split at h <;> cases h
    · trivial
    · exact hp
  | unreserved =>
    simp only [Preparing.step] at h
    split at h <;> cases h
    · trivial
    · rename_i hfree
      exact ⟨hp, rfl, by simpa using hfree⟩
  | inserted t =>
    simp only [Preparing.step, Option.some.injEq, Prod.mk.injEq] at h
    rw [← h.1]
    trivial
  | done outcome => cases h

theorem Enrolling.step_knows {p p' : Enrolling} {code : String} {secret : Option String} (hdb : db.Pointed)
    (h : p.step K held draw db code secret = some (p', db')) (hp : p.Knows db code) : p'.Knows db code := by
  cases p with
  | begun =>
    simp only [Enrolling.step] at h
    split at h <;> cases h
    · assumption
    · trivial
  | marked id =>
    obtain ⟨t, ht, hschema⟩ := hdb id hp
    simp only [Enrolling.step, ht, Option.some.injEq, Prod.mk.injEq] at h
    rw [← h.1]
    split
    · exact hdb.marked hp ht
    · trivial
  | found tenant =>
    obtain ⟨t, ht, hschema⟩ := hdb _ hp.id
    simp only [Enrolling.step, ht] at h
    split at h <;> cases h
    split
    · rename_i hactive
      exact ⟨hp, t, ht, hactive, rfl⟩
    · trivial
  | locked tenant max =>
    simp only [Enrolling.step] at h
    split at h
    · cases h
    · split at h
      · rename_i pc hpc
        cases h
        split
        · exact ⟨hp.1, hp.2, hpc⟩
        · trivial
      · cases h
        trivial
  | coded tenant max pc =>
    obtain ⟨hmarked, hadmits, hpc⟩ := hp
    simp only [Enrolling.step] at h
    split at h <;> cases h
    · trivial
    · rename_i hroom
      refine ⟨hmarked, pc, hpc, max, hadmits, fun hfree m hm => ?_⟩
      rw [hmarked.schema] at hroom
      simpa [hfree, hm] using hroom
  | confirming tenant =>
    obtain ⟨hmarked, pc, hadmitted⟩ := hp
    simp only [Enrolling.step, hadmitted.1] at h
    split at h
    · rename_i hconsumed
      split at h <;> cases h
      · trivial
      · exact ⟨hmarked, pc, hadmitted.1, hconsumed, rfl⟩
    · rename_i hfree
      split at h <;> cases h
      · trivial
      · exact ⟨hmarked, hadmitted, by simpa using hfree⟩
  | again tenant kioskId =>
    simp only [Enrolling.step] at h
    split at h <;> cases h <;> trivial
  | naming tenant pc number =>
    simp only [Enrolling.step] at h
    split at h <;> cases h
    · split
      · trivial
      · exact hp
    · exact hp
  | named tenant pc name =>
    simp only [Enrolling.step] at h
    split at h <;> cases h
    · trivial
    · exact ⟨hp.1, hp.2.1, hp.2.2, hp.1.schema⟩
  | created tenant pc fresh kiosk =>
    simp only [Enrolling.step] at h
    split at h <;> cases h <;> trivial
  | done outcome => cases h

theorem Cleaning.step_knows {p p' : Cleaning} {now : Nat} (hdb : db.Pointed)
    (h : p.step held db now = some (p', db')) (hp : p.Knows db) : p'.Knows db := by
  cases p with
  | begun =>
    simp only [Cleaning.step] at h
    split at h <;> cases h
    · assumption
    · trivial
  | marked id =>
    obtain ⟨t, ht, -⟩ := hdb id hp
    simp only [Cleaning.step, ht, Option.some.injEq, Prod.mk.injEq] at h
    rw [← h.1]
    exact hdb.marked hp ht
  | found tenant =>
    cases h
    exact hp
  | locked tenant ids =>
    cases h
    trivial
  | done outcome => cases h

theorem Call.step_knows (hdb : db.Pointed) (h : c.step K held draw db = some (c', db')) (hc : c.Knows db) :
    c'.Knows db := by
  cases c with
  | prepareDemo p =>
    obtain ⟨r, hr, heq⟩ := Option.map_eq_some_iff.1 h
    cases heq
    exact Preparing.step_knows hdb hr hc
  | enrollDemo code secret p =>
    obtain ⟨r, hr, heq⟩ := Option.map_eq_some_iff.1 h
    cases heq
    exact Enrolling.step_knows hdb hr hc
  | cleanupDemo now p =>
    obtain ⟨r, hr, heq⟩ := Option.map_eq_some_iff.1 h
    cases heq
    exact Cleaning.step_knows hdb hr hc

/-- A statement that commits nothing. -/
structure Quiet (c c' : Call) (db db' : Db) : Prop where
  db : db' = db
  pending : c.pending = none
  enrols : ∀ db, c'.enrols db c = []

/-- A statement leaves the database as it is, or it is the commit of one of the three operations. -/
theorem Call.step_cases (h : c.step K held draw db = some (c', db')) : Quiet c c' db db' ∨
    (∃ t, c = .prepareDemo (.inserted t) ∧ c' = .prepareDemo (.done (.ok (some t))) ∧ db' = db.prepared t) ∨
    (∃ code secret t pc fresh kiosk, c = .enrollDemo code secret (.created t pc fresh kiosk) ∧
      c' = .enrollDemo code secret (.done (.ok kiosk.row.id)) ∧
      db' = db.enrolled kiosk code
        (pc.consume draw.now kiosk.row.id
          (Pairing.claimedExtras K draw.now fresh (t.input code) pc.extras))) ∨
    (∃ now t ids, c = .cleanupDemo now (.locked t ids) ∧ c' = .cleanupDemo now (.done (.ok ids.length)) ∧
      db' = db.deleteKiosks t.schema_name ids) := by
  cases c with
  | prepareDemo p =>
    obtain ⟨r, hr, heq⟩ := Option.map_eq_some_iff.1 h
    cases heq
    cases p with
    | inserted t =>
      cases hr
      exact .inr (.inl ⟨t, rfl, rfl, rfl⟩)
    | done outcome => cases hr
    | _ =>
      refine .inl ⟨?_, rfl, fun _ => rfl⟩
      simp only [Preparing.step] at hr
      split at hr <;> cases hr <;> rfl
  | enrollDemo code secret p =>
    obtain ⟨r, hr, heq⟩ := Option.map_eq_some_iff.1 h
    cases heq
    cases p with
    | created t pc fresh kiosk =>
      simp only [Enrolling.step] at hr
      split at hr <;> cases hr
      · exact .inr (.inr (.inl ⟨code, secret, t, pc, fresh, kiosk, rfl, rfl, rfl⟩))
      · exact .inl ⟨rfl, rfl, fun _ => rfl⟩
    | done outcome => cases hr
    | found t | locked t max =>
      refine .inl ⟨?_, rfl, fun _ => rfl⟩
      simp only [Enrolling.step] at hr
      split at hr
      · cases hr
      · split at hr <;> cases hr <;> rfl
    | confirming t =>
      refine .inl ⟨?_, rfl, fun _ => rfl⟩
      simp only [Enrolling.step] at hr
      split at hr
      · split at hr <;> split at hr <;> cases hr <;> rfl
      · cases hr
        rfl
    | _ =>
      refine .inl ⟨?_, rfl, fun _ => rfl⟩
      simp only [Enrolling.step] at hr
      split at hr <;> cases hr <;> rfl
  | cleanupDemo now p =>
    obtain ⟨r, hr, heq⟩ := Option.map_eq_some_iff.1 h
    cases heq
    cases p with
    | locked t ids =>
      cases hr
      exact .inr (.inr (.inr ⟨now, t, ids, rfl, rfl, rfl⟩))
    | done outcome => cases hr
    | found t =>
      cases hr
      exact .inl ⟨rfl, rfl, fun _ => rfl⟩
    | _ =>
      refine .inl ⟨?_, rfl, fun _ => rfl⟩
      simp only [Cleaning.step] at hr
      split at hr <;> cases hr <;> rfl

/-- A statement takes only locks that no other session has. -/
theorem Call.step_locks (h : c.step K held draw db = some (c', db')) : ∀ l ∈ c'.locks, l ∈ c.locks ∨
    held l = false := by
  cases c with
  | prepareDemo p =>
    obtain ⟨r, hr, heq⟩ := Option.map_eq_some_iff.1 h
    cases heq
    cases p with
    | begun =>
      simp only [Preparing.step] at hr
      split at hr <;> cases hr
      rename_i hfree
      simp [Call.locks, Preparing.locks, hfree]
    | inserted t =>
      cases hr
      simp [Call.locks, Preparing.locks]
    | done outcome => cases hr
    | _ =>
      simp only [Preparing.step] at hr
      split at hr <;> cases hr <;> simp [Call.locks, Preparing.locks]
  | enrollDemo code secret p =>
    obtain ⟨r, hr, heq⟩ := Option.map_eq_some_iff.1 h
    cases heq
    cases p with
    | begun =>
      simp only [Enrolling.step] at hr
      split at hr <;> cases hr <;> simp [Call.locks, Enrolling.locks]
    | marked id =>
      simp only [Enrolling.step] at hr
      split at hr <;> cases hr
      · split <;> simp [Call.locks, Enrolling.locks]
      · simp [Call.locks, Enrolling.locks]
    | found t =>
      simp only [Enrolling.step] at hr
      split at hr
      · cases hr
      · rename_i hfree
        split at hr <;> cases hr
        · split <;> simp [Call.locks, Enrolling.locks, hfree]
        · simp [Call.locks, Enrolling.locks]
    | locked t max =>
      simp only [Enrolling.step] at hr
      split at hr
      · cases hr
      · rename_i hfree
        split at hr <;> cases hr
        · split <;> simp [Call.locks, Enrolling.locks, hfree]
        · simp [Call.locks, Enrolling.locks]
    | confirming t =>
      simp only [Enrolling.step] at hr
      split at hr
      · split at hr <;> split at hr <;> cases hr <;> simp [Call.locks, Enrolling.locks]
      · cases hr
        simp [Call.locks, Enrolling.locks]
    | naming t pc number =>
      simp only [Enrolling.step] at hr
      split at hr <;> cases hr
      · split <;> simp [Call.locks, Enrolling.locks]
      · simp [Call.locks, Enrolling.locks]
    | done outcome => cases hr
    | _ =>
      simp only [Enrolling.step] at hr
      split at hr <;> cases hr <;> simp [Call.locks, Enrolling.locks]
  | cleanupDemo now p =>
    obtain ⟨r, hr, heq⟩ := Option.map_eq_some_iff.1 h
    cases heq
    cases p with
    | found t =>
      cases hr
      intro l hl
      obtain ⟨id, hid, rfl⟩ := List.mem_map.1 hl
      obtain ⟨k, hk, rfl⟩ := List.mem_map.1 hid
      have hmem := (List.mem_insertionSort _).1 (List.mem_of_mem_take hk)
      have hfree := (List.mem_filter.1 hmem).2
      exact .inr (by simpa using (Bool.and_eq_true_iff.1 hfree).2)
    | locked t ids =>
      cases hr
      simp [Call.locks, Cleaning.locks]
    | done outcome => cases hr
    | _ =>
      simp only [Cleaning.step] at hr
      split at hr <;> cases hr <;> simp [Call.locks, Cleaning.locks]

end Statements

/-! ### What the others may change -/

/-- What a session relies on, from its locks and from what it has read. -/
structure Kept (c : Call) (db db' : Db) : Prop where
  marker : ∀ id, db.demo_tenant_id = some id → db'.demo_tenant_id = some id
  unmarked : .advisory ∈ c.locks → db.demo_tenant_id = none → db'.demo_tenant_id = none
  pending : ∀ t, c.pending = some t → (∀ u ∈ db.tenants, ¬ t.conflicts u) → ∀ u ∈ db'.tenants, ¬ t.conflicts u
  row : ∀ id t, .tenant id ∈ c.locks → db.tenant id = some t → db'.tenant id = some t
  code : ∀ code pc, .code code ∈ c.locks → db.codes code = some pc → db'.codes code = some pc
  count : ∀ id, .tenant id ∈ c.locks → db.demo_tenant_id = some id →
    db'.count DEMO_SCHEMA ≤ db.count DEMO_SCHEMA

section Others

variable {c : Call} {db db' : Db} {tenant t : Tenant} {id code schema : String} {pc : PairingCode}
  {max : Option Int}

theorem Marked.kept (h : Kept c db db') (hm : Marked db tenant) : Marked db' tenant :=
  ⟨h.marker _ hm.id, hm.schema⟩

theorem Admits.kept (h : Kept c db db') (hl : .tenant tenant.id ∈ c.locks) (ha : Admits db tenant max) :
    Admits db' tenant max := by
  obtain ⟨row, hrow, hrest⟩ := ha
  exact ⟨row, h.row _ _ hl hrow, hrest⟩

theorem Admitted.kept (h : Kept c db db') (hm : Marked db tenant) (hl : .tenant tenant.id ∈ c.locks)
    (hcode : .code code ∈ c.locks)
    (ha : Admitted db tenant code pc) : Admitted db' tenant code pc := by
  obtain ⟨hpc, max, hadmits, hroom⟩ := ha
  refine ⟨h.code _ _ hcode hpc, max, hadmits.kept h hl, fun hfree m hm' => ?_⟩
  have hcount := h.count _ hl hm.id
  have hlt := hroom hfree m hm'
  omega

theorem Call.Knows.kept (h : Kept c db db') (hc : c.Knows db) : c.Knows db' := by
  cases c with
  | prepareDemo p =>
    cases p with
    | begun | locked | done => trivial
    | marked id => exact h.marker _ hc
    | unmarked | unreserved => exact h.unmarked (by simp [Call.locks, Preparing.locks]) hc
    | inserted t =>
      obtain ⟨hnone, hschema, hfree⟩ := hc
      exact ⟨h.unmarked (by simp [Call.locks, Preparing.locks]) hnone, hschema, h.pending t rfl hfree⟩
  | enrollDemo code secret p =>
    cases p with
    | begun | done => trivial
    | marked id => exact h.marker _ hc
    | found t => exact Marked.kept h hc
    | locked t max => exact ⟨hc.1.kept h, hc.2.kept h (by simp [Call.locks, Enrolling.locks])⟩
    | coded t max pc =>
      obtain ⟨hm, hadmits, hpc⟩ := hc
      exact ⟨hm.kept h, hadmits.kept h (by simp [Call.locks, Enrolling.locks]),
        h.code _ _ (by simp [Call.locks, Enrolling.locks]) hpc⟩
    | confirming t =>
      obtain ⟨hm, pc, hadmitted⟩ := hc
      exact ⟨hm.kept h, pc, hadmitted.kept h hm (by simp [Call.locks, Enrolling.locks])
        (by simp [Call.locks, Enrolling.locks])⟩
    | again t kioskId =>
      obtain ⟨hm, pc, hpc, hrest⟩ := hc
      exact ⟨hm.kept h, pc, h.code _ _ (by simp [Call.locks, Enrolling.locks]) hpc, hrest⟩
    | naming t pc _ | named t pc _ | created t pc _ _ =>
      obtain ⟨hm, hadmitted, hrest⟩ := hc
      exact ⟨hm.kept h, hadmitted.kept h hm (by simp [Call.locks, Enrolling.locks])
        (by simp [Call.locks, Enrolling.locks]), hrest⟩
  | cleanupDemo now p =>
    cases p with
    | begun | done => trivial
    | marked id => exact h.marker _ hc
    | found t | locked t ids => exact Marked.kept h hc

theorem Call.advisory_of_pending (h : c.pending = some t) : .advisory ∈ c.locks := by
  unfold Call.pending at h
  split at h
  · simp [Call.locks, Preparing.locks]
  · cases h

theorem Db.count_of_ids (h : (db'.kiosksOf schema).map (fun k => k.row.id) = (db.kiosksOf schema).map
    fun k => k.row.id) :
    db'.count schema = db.count schema := by simpa [Db.count] using congrArg List.length h

theorem kept_prepared (hfree : .advisory ∉ c.locks) (hnone : db.demo_tenant_id = none) :
    Kept c db (db.prepared t) where
  marker _ h := by simp [hnone] at h
  unmarked h := absurd h hfree
  pending _ h := absurd (Call.advisory_of_pending h) hfree
  row _ _ _ h := Db.tenant_append h _ rfl
  code _ _ _ h := h
  count _ _ _ := le_rfl

theorem kept_enrolled {kiosk : Kiosk} (hfree : .code code ∉ c.locks)
    (hcount : ∀ id, .tenant id ∈ c.locks → db.demo_tenant_id = some id → kiosk.schema ≠ DEMO_SCHEMA) :
    Kept c db (db.enrolled kiosk code pc) where
  marker _ h := h
  unmarked _ h := h
  pending _ _ h := h
  row _ _ _ h := h
  code key _ hkey h := by
    have hne : key ≠ code := fun heq => hfree (heq ▸ hkey)
    simpa [Db.enrolled, hne] using h
  count id hl hid := by simp [Db.count, Db.kiosksOf_enrolled, hcount id hl hid]

theorem kept_deleteKiosks {ids : List String} : Kept c db (db.deleteKiosks schema ids) where
  marker _ h := h
  unmarked _ h := h
  pending _ _ h := h
  row _ _ _ h := h
  code _ _ _ h := h
  count _ _ _ := by
    rw [Db.count, Db.kiosksOf_deleteKiosks]
    exact List.length_filter_le _ _

theorem kept_createsCustomer (hfree : ∀ u, c.pending = some u → ¬ u.conflicts t) :
    Kept c db { db with tenants := db.tenants ++ [t] } where
  marker _ h := h
  unmarked _ h := h
  pending u hu h v hv := by
    rcases List.mem_append.1 hv with hold | hnew
    · exact h v hold
    · exact List.mem_singleton.1 hnew ▸ hfree u hu
  row _ _ _ h := Db.tenant_append h _ rfl
  code _ _ _ h := h
  count _ _ _ := le_rfl

theorem kept_updateTenant {a : Bool} (hfree : .tenant id ∉ c.locks) :
    Kept c db (db.updateTenant id a max) where
  marker _ h := h
  unmarked _ h := h
  pending _ _ h u hu := by
    obtain ⟨v, hv, rfl⟩ := List.mem_map.1 hu
    simpa [Tenant.conflicts] using h v hv
  row key t hkey h := by
    have hne : t.id ≠ id := fun heq => hfree (heq ▸ (Db.tenant_mem h).2 ▸ hkey)
    simp [Db.tenant_updateTenant, h, Tenant.update, hne]
  code _ _ _ h := h
  count _ _ _ := le_rfl

theorem kept_initiates (hnone : db.codes code = none) :
    Kept c db { db with codes := Function.update db.codes code (some pc) } where
  marker _ h := h
  unmarked _ h := h
  pending _ _ h := h
  row _ _ _ h := h
  code key _ _ h := by
    have hne : key ≠ code := by
      rintro rfl
      simp [hnone] at h
    simpa [hne] using h
  count _ _ _ := le_rfl

theorem kept_seen {now : Nat} : Kept c db (db.seen schema id now) where
  marker _ h := h
  unmarked _ h := h
  pending _ _ h := h
  row _ _ _ h := h
  code _ _ _ h := h
  count _ _ _ := (Db.count_of_ids Db.kiosksOf_seen).le

end Others

/-! ### The invariant -/

/-- The code was consumed by an enrolment that created the kiosk. -/
structure ConsumedBy (kiosk : String) (pc : PairingCode) : Prop where
  consumed : pc.consumed_at.isSome = true
  by_ : pc.consumed_by_kiosk_id = some kiosk
  demo : pc.extras.demo = true
  schema : pc.extras.tenant_schema = some DEMO_SCHEMA
  request : ∀ (tenant : Tenant) code, pc.extras.confirmation_request = some (tenant.input code).request

/-- What holds of the tables of tenants and kiosks. -/
structure Registry (db : Db) (customers : List String) : Prop where
  apart : db.Apart
  pointed : db.Pointed
  customers : ∀ id ∈ customers, db.demo_tenant_id ≠ some id ∧ ∃ t ∈ db.tenants, t.id = id
  housed : ∀ k ∈ db.kiosks, ∃ t ∈ db.tenants, t.schema_name = k.schema

/-- What the log of the enrolments says of the database. -/
structure Ledger (s : State) : Prop where
  made : s.made = s.db.demo_tenant_id.toList
  unmarked : s.db.demo_tenant_id = none → s.enrolments = []
  traced : s.db.demo_tenant_id ≠ none →
    ((s.db.kiosksOf DEMO_SCHEMA).map fun k => k.row.id).Sublist (s.enrolments.map Enrolment.kiosk)
  consumed : ∀ e ∈ s.enrolments, ∃ pc, s.db.codes e.code = some pc ∧ ConsumedBy e.kiosk pc
  within : ∀ e ∈ s.enrolments, e.Within
  once : (s.enrolments.map Enrolment.code).Nodup

/-- No two sessions hold one lock, and each of them knows what it has read under its own. -/
structure Inv (s : State) : Prop where
  exclusive : Sessions.Exclusive Call.locks s.sessions
  knows : Sessions.All (Call.Knows s.db) s.sessions
  registry : Registry s.db s.customers
  ledger : Ledger s

section Registry

variable {db : Db} {customers : List String} {tenant t : Tenant} {id schema code : String}
  {kiosk : Kiosk} {pc : PairingCode}

theorem Registry.customer_schema (h : Registry db customers) (hid : id ∈ customers)
    (ht : db.tenant id = some t)
    (hmarked : db.demo_tenant_id ≠ none) : t.schema_name ≠ DEMO_SCHEMA := by
  intro hschema
  obtain ⟨key, hkey⟩ := Option.ne_none_iff_exists'.1 hmarked
  obtain ⟨u, hu, huschema⟩ := h.pointed key hkey
  obtain ⟨htmem, htid⟩ := Db.tenant_mem ht
  obtain ⟨humem, huid⟩ := Db.tenant_mem hu
  have heq := h.apart.unique htmem humem (.inr (.inr (hschema.trans huschema.symm)))
  exact (h.customers id hid).1 (by rw [hkey, ← huid, ← heq, htid])

theorem Registry.prepared (h : Registry db customers) (hschema : t.schema_name = DEMO_SCHEMA)
    (hfree : ∀ u ∈ db.tenants, ¬ t.conflicts u) : Registry (db.prepared t) customers where
  apart := h.apart.append hfree
  pointed id hid := by
    cases hid
    have hmem : t ∈ (db.prepared t).tenants := by simp [Db.prepared]
    exact ⟨t, Db.Apart.tenant_eq (h.apart.append hfree) hmem, hschema⟩
  customers id hid := by
    obtain ⟨-, u, hu, rfl⟩ := h.customers id hid
    refine ⟨?_, u, List.mem_append_left _ hu, rfl⟩
    intro heq
    exact hfree u hu (.inl (Option.some.inj heq))
  housed k hk := by
    obtain ⟨u, hu, hk⟩ := h.housed k hk
    exact ⟨u, List.mem_append_left _ hu, hk⟩

theorem Registry.createsCustomer (h : Registry db customers) (hfree : ∀ u ∈ db.tenants, ¬ t.conflicts u) :
    Registry { db with tenants := db.tenants ++ [t] } (customers ++ [t.id]) where
  apart := h.apart.append hfree
  pointed id hid := by
    obtain ⟨u, hu, hschema⟩ := h.pointed id hid
    exact ⟨u, Db.tenant_append hu _ rfl, hschema⟩
  customers id hid := by
    rcases List.mem_append.1 hid with hold | hnew
    · obtain ⟨hne, u, hu, hid⟩ := h.customers id hold
      exact ⟨hne, u, List.mem_append_left _ hu, hid⟩
    · rw [List.mem_singleton.1 hnew]
      refine ⟨fun heq => ?_, t, by simp, rfl⟩
      obtain ⟨u, hu, -⟩ := h.pointed _ heq
      obtain ⟨hmem, hid⟩ := Db.tenant_mem hu
      exact hfree u hmem (.inl hid.symm)
  housed k hk := by
    obtain ⟨u, hu, hk⟩ := h.housed k hk
    exact ⟨u, List.mem_append_left _ hu, hk⟩

theorem Registry.updateTenant {a : Bool} {m : Option Int} (h : Registry db customers) :
    Registry (db.updateTenant id a m) customers where
  apart := h.apart.updateTenant
  pointed key hkey := by
    obtain ⟨u, hu, hschema⟩ := h.pointed key hkey
    exact ⟨u.update id a m, by rw [Db.tenant_updateTenant, hu, Option.map_some], by
        rw [Tenant.schema_name_update, hschema]⟩
  customers key hkey := by
    obtain ⟨hne, u, hu, hid⟩ := h.customers key hkey
    exact ⟨hne, u.update id a m, List.mem_map_of_mem hu, by rw [Tenant.id_update, hid]⟩
  housed k hk := by
    obtain ⟨u, hu, hschema⟩ := h.housed k hk
    exact ⟨u.update id a m, List.mem_map_of_mem hu, by rw [Tenant.schema_name_update, hschema]⟩

theorem Registry.kiosks {kiosks : List Kiosk} {codes : String → Option PairingCode}
    (h : Registry db customers)
    (hkiosks : ∀ k ∈ kiosks, ∃ t ∈ db.tenants, t.schema_name = k.schema) :
    Registry { db with codes, kiosks } customers where
  apart := h.apart
  pointed := h.pointed
  customers := h.customers
  housed := hkiosks

theorem Registry.enrolled (h : Registry db customers) (ht : t ∈ db.tenants)
    (hschema : t.schema_name = kiosk.schema) :
    Registry (db.enrolled kiosk code pc) customers := by
  refine h.kiosks fun k hk => ?_
  rcases List.mem_append.1 hk with hold | hnew
  · exact h.housed k hold
  · exact ⟨t, ht, by rw [List.mem_singleton.1 hnew, hschema]⟩

end Registry

section Ledger

variable {K} {s : State} {db' : Db} {c c' : Call} {t : Tenant} {code : String} {kiosk : Kiosk}
  {pc : PairingCode} {e : Enrolment}

/-- Nothing about enrolments changes with the rows of tenants, of unconsumed codes and of other kiosks. -/
theorem Ledger.frame {sessions : List Call} {customers : List String} (h : Ledger s)
    (hid : db'.demo_tenant_id = s.db.demo_tenant_id)
    (hcodes : ∀ code pc, s.db.codes code = some pc → pc.consumed_at.isSome = true → db'.codes code = some pc)
    (hkiosks : s.db.demo_tenant_id ≠ none →
      ((db'.kiosksOf DEMO_SCHEMA).map fun k => k.row.id).Sublist
      ((s.db.kiosksOf DEMO_SCHEMA).map fun k => k.row.id)) :
    Ledger { s with db := db', sessions, customers } where
  made := by rw [h.made, hid]
  unmarked hnone := h.unmarked (hid ▸ hnone)
  traced hmarked := (hkiosks (hid ▸ hmarked)).trans (h.traced (hid ▸ hmarked))
  consumed e he := by
    obtain ⟨pc, hpc, hconsumed⟩ := h.consumed e he
    exact ⟨pc, hcodes _ _ hpc hconsumed.consumed, hconsumed⟩
  within := h.within
  once := h.once

theorem Registry.housed_none (h : Registry s.db s.customers) (hfree : ∀ u ∈ s.db.tenants, ¬ t.conflicts u) :
    s.db.kiosksOf t.schema_name = [] := by
  refine List.filter_eq_nil_iff.2 fun k hk => ?_
  obtain ⟨u, hu, hschema⟩ := h.housed k hk
  intro heq
  exact hfree u hu (.inr (.inr (by rw [hschema, of_decide_eq_true heq])))

theorem Ledger.prepared {sessions : List Call} (h : Ledger s) (hr : Registry s.db s.customers)
    (hnone : s.db.demo_tenant_id = none)
    (hschema : t.schema_name = DEMO_SCHEMA) (hfree : ∀ u ∈ s.db.tenants, ¬ t.conflicts u) :
    Ledger { s with db := s.db.prepared t, sessions, made := s.made ++ [t.id] } := by
  have hempty := h.unmarked hnone
  constructor
  · rw [h.made, hnone]
    rfl
  · intro _
    exact hempty
  · intro _
    show (((s.db.prepared t).kiosksOf DEMO_SCHEMA).map _).Sublist _
    rw [Db.kiosksOf_prepared, ← hschema, hr.housed_none hfree]
    exact List.nil_sublist _
  · simp [hempty]
  · simp [hempty]
  · simp [hempty]

/-- A code that is not consumed has not enrolled a kiosk. -/
theorem Ledger.code_ne (h : Ledger s) (hpc : s.db.codes code = some pc) (hfree : pc.consumed_at = none)
    (he : e ∈ s.enrolments) :
    e.code ≠ code := by
  rintro rfl
  obtain ⟨pc', hpc', hconsumed⟩ := h.consumed e he
  rw [hpc, Option.some.injEq] at hpc'
  have hsome := hconsumed.consumed
  simp [← hpc', hfree] at hsome

theorem within_enrolled {pc' : PairingCode} (hr : Registry s.db s.customers) (hm : Marked s.db t)
    (ha : Admitted s.db t code pc)
    (hfree : pc.consumed_at = none) (hschema : kiosk.schema = DEMO_SCHEMA) :
    Enrolment.Within ⟨code, kiosk.row.id, s.db.enrolled kiosk code pc'⟩ := by
  obtain ⟨-, max, ⟨row, hrow, hactive, rfl⟩, hroom⟩ := ha
  obtain ⟨hmem, hid⟩ := Db.tenant_mem hrow
  obtain ⟨u, hu, hdemo⟩ := hr.pointed _ hm.id
  obtain rfl : row = u := by rwa [hrow, Option.some.injEq] at hu
  refine ⟨row, hmem, hid ▸ hm.id, hactive, ⟨kiosk, ?_, rfl⟩, fun max hmax => ?_⟩
  · rw [Db.kiosksOf_enrolled, if_pos (hschema.trans hdemo.symm)]
    simp
  · have hlt := hroom hfree max hmax
    show (((s.db.enrolled kiosk code pc').kiosksOf row.schema_name).length : Int) ≤ max
    rw [Db.kiosksOf_enrolled, hdemo, if_pos hschema, List.length_append, List.length_singleton]
    change ((s.db.kiosksOf DEMO_SCHEMA).length : Int) < max at hlt
    omega

theorem consumedBy_consume (now : Nat) (fresh : Fresh) (tenant : Tenant)
    (hschema : tenant.schema_name = DEMO_SCHEMA) :
    ConsumedBy kiosk.row.id
      (pc.consume now kiosk.row.id (Pairing.claimedExtras K now fresh (tenant.input code) pc.extras)) where
  consumed := rfl
  by_ := rfl
  demo := rfl
  schema := congrArg some hschema
  request _ _ := rfl

theorem Ledger.enrolled {sessions : List Call} {now : Nat} {fresh : Fresh} (h : Ledger s)
    (hr : Registry s.db s.customers)
    (hm : Marked s.db t) (ha : Admitted s.db t code pc) (hfree : pc.consumed_at = none)
    (hschema : kiosk.schema = DEMO_SCHEMA) (hdb : db' = s.db.enrolled kiosk code
      (pc.consume now kiosk.row.id (Pairing.claimedExtras K now fresh (t.input code) pc.extras))) :
    Ledger { s with db := db', sessions, enrolments := s.enrolments ++ [⟨code, kiosk.row.id, db'⟩] } := by
  subst hdb
  have hne : ∀ e ∈ s.enrolments, e.code ≠ code := fun e he => h.code_ne ha.1 hfree he
  constructor
  · exact h.made
  · intro hnone
    simp [Db.enrolled, hm.id] at hnone
  · intro hmarked
    rw [Db.kiosksOf_enrolled, if_pos hschema, List.map_append, List.map_append]
    exact (h.traced hmarked).append (List.Sublist.refl _)
  · intro e he
    rcases List.mem_append.1 he with hold | hnew
    · obtain ⟨pc', hpc', hconsumed⟩ := h.consumed e hold
      exact ⟨pc', by simpa [Db.enrolled, hne e hold] using hpc', hconsumed⟩
    · rw [List.mem_singleton.1 hnew]
      exact ⟨_, Function.update_self .., consumedBy_consume now fresh t hm.schema⟩
  · intro e he
    rcases List.mem_append.1 he with hold | hnew
    · exact h.within e hold
    · rw [List.mem_singleton.1 hnew]
      exact within_enrolled hr hm ha hfree hschema
  · rw [List.map_append, List.nodup_append]
    refine ⟨h.once, List.nodup_singleton _, fun a ha b hb => ?_⟩
    obtain ⟨e, he, rfl⟩ := List.mem_map.1 ha
    rw [List.mem_singleton.1 hb]
    exact hne e he

end Ledger

section Steps

variable {K} {s s' : State} {i : Nat} {draw : Draw} {text : String} {c c' : Call} {db' : Db}

theorem init_inv : Inv State.init where
  exclusive i j l hi := by simp [Sessions.lockedBy, State.init] at hi
  knows i c hi := by simp [State.init] at hi
  registry :=
    { apart := List.Pairwise.nil
      pointed := fun _ h => nomatch h
      customers := by simp [State.init]
      housed := by simp [State.init] }
  ledger :=
    { made := rfl
      unmarked := fun _ => rfl
      traced := fun h => absurd rfl h
      consumed := by simp [State.init]
      within := by simp [State.init]
      once := List.nodup_nil }

/-- A session that commits has the locks that its writes need, so the others find what they rely on. -/
theorem proceeds_inv (h : Inv s) (hi : s.sessions[i]? = some c)
    (hstep : c.step K (s.held i) draw s.db = some (c', db')) :
    Inv { s with
      db := db'
      sessions := s.sessions.set i c'
      made := s.made ++ c.pending.toList.map Tenant.id
      enrolments := s.enrolments ++ c'.enrols db' c } := by
  have hc := h.knows i c hi
  have hfree : ∀ l ∈ c.locks, ∀ j d, j ≠ i → s.sessions[j]? = some d → l ∉ d.locks :=
    fun l hl j d hne hj => h.exclusive.free hi hl hne hj
  have hexclusive := h.exclusive.set hi (Call.step_locks hstep)
  have hknows := Call.step_knows h.registry.pointed hstep hc
  rcases Call.step_cases hstep with hquiet | ⟨t, rfl, rfl, rfl⟩ | ⟨code, secret, t, pc, fresh,
    kiosk, rfl, rfl, hdb⟩ |
      ⟨now, t, ids, rfl, rfl, rfl⟩
  · obtain ⟨rfl, hpending, henrols⟩ := hquiet
    refine ⟨hexclusive, h.knows.set hknows fun _ _ _ _ hd => hd, h.registry, ?_⟩
    have hledger : Ledger { s with sessions := s.sessions.set i c' } :=
      h.ledger.frame rfl (fun _ _ hpc _ => hpc) fun _ => List.Sublist.refl _
    simpa [hpending, henrols] using hledger
  · obtain ⟨hnone, hschema, hconflicts⟩ := hc
    have hadvisory := hfree .advisory (by simp [Call.locks, Preparing.locks])
    refine ⟨hexclusive, h.knows.set trivial fun j d hne hj hd => ?_,
      h.registry.prepared hschema hconflicts, ?_⟩
    · exact hd.kept (kept_prepared (hadvisory j d hne hj) hnone)
    · simpa [Call.pending, Call.enrols] using h.ledger.prepared h.registry hnone hschema hconflicts
  · obtain ⟨hm, hadmitted, hunconsumed, hschema⟩ := hc
    have hrow := hfree (.tenant t.id) (by simp [Call.locks, Enrolling.locks])
    have hcode := hfree (.code code) (by simp [Call.locks, Enrolling.locks])
    refine ⟨hexclusive, h.knows.set trivial fun j d hne hj hd => ?_, ?_, ?_⟩
    · rw [hdb]
      refine hd.kept (kept_enrolled (hcode j d hne hj) fun id hl hid => ?_)
      -- a session that counts on the number of kiosks has the same row locked
      rw [hm.id, Option.some.injEq] at hid
      exact absurd (hid ▸ hl) (hrow j d hne hj)
    · obtain ⟨u, hu, hdemo⟩ := h.registry.pointed _ hm.id
      rw [hdb]
      exact h.registry.enrolled (Db.tenant_mem hu).1 (hdemo.trans hschema.symm)
    · simpa [Call.pending, Call.enrols] using h.ledger.enrolled h.registry hm hadmitted hunconsumed
        hschema hdb
  · refine ⟨hexclusive, h.knows.set trivial fun j d hne hj hd => hd.kept kept_deleteKiosks, ?_, ?_⟩
    · exact h.registry.kiosks fun k hk => h.registry.housed k (List.mem_filter.1 hk).1
    · have hsub : ((s.db.deleteKiosks t.schema_name ids).kiosksOf DEMO_SCHEMA).Sublist
          (s.db.kiosksOf DEMO_SCHEMA) := by
        rw [Db.kiosksOf_deleteKiosks]
        exact List.filter_sublist
      have hledger : Ledger { s with
          db := s.db.deleteKiosks t.schema_name ids
          sessions := s.sessions.set i (.cleanupDemo now (.done (.ok ids.length))) } :=
        h.ledger.frame rfl (fun _ _ hpc _ => hpc) fun _ => hsub.map _
      simpa [Call.pending, Call.enrols] using hledger

theorem not_locked {l : Lock} (h : s.locked l = false) {j : Nat} {d : Call} (hj : s.sessions[j]? = some d) :
    l ∉ d.locks := by
  have hall := List.any_eq_false.1 h d (List.mem_of_getElem? hj)
  simpa using hall

theorem Call.fail_locks (h : c.fail text = some c') : c'.locks = [] ∧ ∀ db, c'.Knows db := by
  unfold Call.fail at h
  split at h <;> cases h <;> exact ⟨rfl, fun _ => trivial⟩

theorem step_inv (l : Label) (h : Inv s) (hstep : step K s l = some s') : Inv s' := by
  cases l with
  | calls op =>
    cases hstep
    obtain ⟨hknows, hlocks⟩ := op.knows s.db
    refine ⟨h.exclusive.append hlocks, h.knows.append hknows, h.registry, ?_⟩
    exact h.ledger.frame rfl (fun _ _ hpc _ => hpc) fun _ => List.Sublist.refl _
  | proceeds i draw =>
    simp only [step] at hstep
    split at hstep
    · rename_i c hi
      obtain ⟨r, hr, rfl⟩ := Option.map_eq_some_iff.1 hstep
      exact proceeds_inv h hi hr
    · cases hstep
  | fails i text =>
    obtain ⟨c', hfail, rfl⟩ := Option.map_eq_some_iff.1 hstep
    obtain ⟨c, hi, hfail⟩ := Option.bind_eq_some_iff.1 hfail
    obtain ⟨hlocks, hknows⟩ := Call.fail_locks hfail
    refine ⟨h.exclusive.set hi (by simp [hlocks]), h.knows.set (hknows s.db) fun _ _ _ _ hd => hd,
      h.registry, ?_⟩
    exact h.ledger.frame rfl (fun _ _ hpc _ => hpc) fun _ => List.Sublist.refl _
  | createsCustomer tenant =>
    simp only [step] at hstep
    split at hstep <;> cases hstep
    rename_i hfree
    obtain ⟨hrows, hpending⟩ := not_or.1 hfree
    refine ⟨h.exclusive, h.knows.mono fun j d hj hd =>
      hd.kept (kept_createsCustomer fun u hu hc => hpending ?_),
      h.registry.createsCustomer (by simpa using hrows), ?_⟩
    · exact List.any_eq_true.2 ⟨d, List.mem_of_getElem? hj, by simpa [hu] using hc.symm⟩
    · exact h.ledger.frame rfl (fun _ _ hpc _ => hpc) fun _ => List.Sublist.refl _
  | updatesTenant id a m =>
    simp only [step] at hstep
    split at hstep <;> cases hstep
    rename_i hfree
    refine ⟨h.exclusive, h.knows.mono fun j d hj hd =>
      hd.kept (kept_updateTenant (not_locked (by simpa using hfree) hj)),
      h.registry.updateTenant, ?_⟩
    exact h.ledger.frame rfl (fun _ _ hpc _ => hpc) fun _ => List.Sublist.refl _
  | initiates code input now secret =>
    simp only [step] at hstep
    split at hstep <;> cases hstep
    rename_i hnone
    refine ⟨h.exclusive, h.knows.mono fun j d hj hd => hd.kept (kept_initiates hnone),
      h.registry.kiosks h.registry.housed, ?_⟩
    refine h.ledger.frame rfl (fun key pc hpc _ => ?_) fun _ => List.Sublist.refl _
    have hne : key ≠ code := by
      rintro rfl
      simp [hnone] at hpc
    simpa [hne] using hpc
  | pairs id code kiosk now fresh =>
    simp only [step] at hstep
    split at hstep
    · rename_i tenant pc htenant hpc
      split at hstep <;> cases hstep
      rename_i hguard
      simp only [not_or, not_not, Bool.not_eq_true] at hguard
      obtain ⟨hcustomer, hfree, hlocked⟩ := hguard
      obtain ⟨hmem, hid⟩ := Db.tenant_mem htenant
      have hschema := h.registry.customer_schema (hid ▸ hcustomer) htenant
      refine ⟨h.exclusive, h.knows.mono fun j d hj hd => hd.kept (kept_enrolled (not_locked hlocked hj) ?_),
        h.registry.enrolled hmem rfl, ?_⟩
      · intro key _ hkey
        exact hschema (by simp [hkey])
      · refine h.ledger.frame rfl (fun key pc' hpc' hconsumed => ?_) fun hmarked => ?_
        · have hne : key ≠ code := by
            rintro rfl
            rw [hpc, Option.some.injEq] at hpc'
            simp [hpc', hconsumed] at hfree
          simpa [Db.enrolled, hne] using hpc'
        · rw [Db.kiosksOf_enrolled, if_neg (hschema hmarked), List.append_nil]
    · cases hstep
  | seen schema id now =>
    simp only [step] at hstep
    split at hstep <;> cases hstep
    refine ⟨h.exclusive, h.knows.mono fun j d hj hd => hd.kept kept_seen, ?_, ?_⟩
    · refine h.registry.kiosks fun k hk => ?_
      obtain ⟨k', hk', rfl⟩ := List.mem_map.1 hk
      obtain ⟨t, ht, hschema⟩ := h.registry.housed k' hk'
      exact ⟨t, ht, by split <;> exact hschema⟩
    · refine h.ledger.frame rfl (fun _ _ hpc _ => hpc) fun _ => ?_
      rw [Db.kiosksOf_seen]

theorem Inv.safe (h : Inv s) : s.Safe where
  made_once := by
    rw [h.ledger.made]
    cases s.db.demo_tenant_id <;> simp
  marker := by
    rw [h.ledger.made]
    cases s.db.demo_tenant_id <;> rfl
  not_customer id hid hcustomer := by
    rw [h.ledger.made, Option.mem_toList] at hid
    exact (h.registry.customers id hcustomer).1 hid
  within := h.ledger.within
  once := h.ledger.once
  traced id tenant hid ht := by
    rw [(h.registry.pointed.marked hid ht).schema]
    exact h.ledger.traced (by simp [hid])

theorem Inv.contained (h : Inv s) : s.Contained K where
  atomic i draw s' hstep := by
    simp only [step] at hstep
    split at hstep
    · rename_i c hi
      obtain ⟨⟨c', db'⟩, hr, rfl⟩ := Option.map_eq_some_iff.1 hstep
      have hlt := (List.getElem?_eq_some_iff.1 hi).1
      rcases Call.step_cases hr with hquiet | ⟨t, rfl, rfl, rfl⟩ | ⟨code, secret, t, pc, fresh,
        kiosk, rfl, rfl, hdb⟩ |
          ⟨now, t, ids, rfl, rfl, rfl⟩
      · exact .inl hquiet.db
      · exact .inr ⟨_, List.getElem?_set_self hlt, trivial⟩
      · exact .inr ⟨_, List.getElem?_set_self hlt, trivial⟩
      · exact .inr ⟨_, List.getElem?_set_self hlt, trivial⟩
    · cases hstep
  rolled_back i text s' hstep := by
    obtain ⟨c', -, rfl⟩ := Option.map_eq_some_iff.1 hstep
    rfl
  customers i draw s' tenant hstep ht := by
    simp only [step] at hstep
    split at hstep
    · rename_i c hi
      obtain ⟨⟨c', db'⟩, hr, rfl⟩ := Option.map_eq_some_iff.1 hstep
      have hc := h.knows i c hi
      have hne : tenant.id ∈ s.customers → s.db.demo_tenant_id ≠ none → tenant.schema_name ≠ DEMO_SCHEMA :=
        fun hid => h.registry.customer_schema hid (h.registry.apart.tenant_eq ht)
      rcases Call.step_cases hr with hquiet | ⟨t, rfl, rfl, rfl⟩ | ⟨code, secret, t, pc, fresh,
        kiosk, rfl, rfl, hdb⟩ |
          ⟨now, t, ids, rfl, rfl, rfl⟩
      · obtain ⟨rfl, -, -⟩ := hquiet
        exact ⟨ht, fun _ => rfl⟩
      · exact ⟨List.mem_append_left _ ht, fun _ => Db.kiosksOf_prepared⟩
      · obtain ⟨hm, -, -, hschema⟩ := hc
        simp only [hdb]
        refine ⟨ht, fun hid => ?_⟩
        rw [Db.kiosksOf_enrolled, if_neg (hschema ▸ (hne hid (by simp [hm.id])).symm), List.append_nil]
      · refine ⟨ht, fun hid => Db.kiosksOf_deleteKiosks_of_ne ?_⟩
        rw [hc.schema]
        exact hne hid (by simp [hc.id])
    · cases hstep

/-! ### Retries -/

/-- The next statement of a retry. -/
theorem Enrolling.step_again {held : Lock → Bool} {db : Db} {code kioskId : String}
    {secret : Option String} {tenant : Tenant}
    {pc : PairingCode} {phase : Enrolling} (hknows : phase.Knows db code)
    (hunfinished : ∀ outcome, phase ≠ .done outcome)
    (hm : Marked db tenant) (hrow : db.tenant tenant.id = some tenant) (hactive : tenant.is_active = true)
    (hpc : db.codes code = some pc) (hconsumed : ConsumedBy kioskId pc)
    (hsecret : matchesSecret K secret pc.extras.polling_secret_hash = true)
    (hkiosk : ∃ k ∈ db.kiosksOf DEMO_SCHEMA, k.row.id = kioskId) :
    (∃ phase', phase.step K held draw db code secret = some (phase', db) ∧
      (phase' = .done (.ok kioskId) ∨ (∀ outcome, phase' ≠ .done outcome) ∧ phase'.ahead < phase.ahead)) ∨
    (phase.step K held draw db code secret = none ∧
      (held (.tenant tenant.id) = true ∨ held (.code code) = true)) := by
  have hnext : ∀ {p : Enrolling} (p' : Enrolling), p.step K held draw db code secret = some (p', db) →
    (∀ outcome, p' ≠ .done outcome) →
      p'.ahead < p.ahead → (∃ phase', p.step K held draw db code secret = some (phase', db) ∧
        (phase' = .done (.ok kioskId) ∨ (∀ outcome, phase' ≠ .done outcome) ∧ phase'.ahead < p.ahead)) :=
    fun _ h hopen hlt => ⟨_, h, .inr ⟨hopen, hlt⟩⟩
  have hid : ∀ {t : Tenant}, Marked db t → t.id = tenant.id :=
    fun h => Option.some.inj (h.id.symm.trans hm.id)
  have hsome := hconsumed.consumed
  have hfree : pc.consumed_at ≠ none := by simp [Option.isSome_iff_ne_none.1 hsome]
  cases phase with
  | begun =>
    exact .inl (hnext (.marked tenant.id) (by simp [Enrolling.step, hm.id]) (by simp)
      (by simp [Enrolling.ahead]))
  | marked id =>
    obtain rfl : id = tenant.id := Option.some.inj (hknows.symm.trans hm.id)
    exact .inl (hnext (.found tenant) (by simp [Enrolling.step, hrow, hactive]) (by simp)
      (by simp [Enrolling.ahead]))
  | found t =>
    have ht := hid hknows
    rcases hheld : held (.tenant tenant.id) with _ | _
    · exact .inl (hnext (.locked t tenant.max_kiosks) (by simp [Enrolling.step, ht, hheld, hrow, hactive])
        (by simp) (by simp [Enrolling.ahead]))
    · exact .inr ⟨by simp [Enrolling.step, ht, hheld], .inl rfl⟩
  | locked t max =>
    rcases hheld : held (.code code) with _ | _
    · exact .inl (hnext (.coded t max pc) (by simp [Enrolling.step, hheld, hpc, hsecret]) (by simp)
        (by simp [Enrolling.ahead]))
    · exact .inr ⟨by simp [Enrolling.step, hheld], .inr rfl⟩
  | coded t max pc' =>
    obtain rfl : pc' = pc := Option.some.inj (hknows.2.2.symm.trans hpc)
    exact .inl (hnext (.confirming t) (by simp [Enrolling.step, hfree]) (by simp) (by simp [Enrolling.ahead]))
  | confirming t =>
    have hschema := hknows.1.schema
    refine .inl (hnext (.again t (some kioskId)) ?_ (by simp) (by simp [Enrolling.ahead]))
    simp [Enrolling.step, hpc, hsome, hconsumed.demo, hconsumed.schema, hschema,
      hconsumed.request t code, hconsumed.by_]
  | again t id =>
    obtain ⟨ht, pc', hpc', -, hby⟩ := hknows
    obtain rfl : pc' = pc := Option.some.inj (hpc'.symm.trans hpc)
    obtain ⟨k, hk, hkid⟩ := hkiosk
    rcases hfound : db.kiosk DEMO_SCHEMA kioskId with _ | found
    · have habsent := List.find?_eq_none.1 hfound k hk
      simp [hkid] at habsent
    · have hfoundid : found.row.id = kioskId := by simpa using List.find?_some hfound
      refine .inl ⟨.done (.ok kioskId), ?_, .inl rfl⟩
      simp [Enrolling.step, ← hby, hconsumed.by_, ht.schema, hfound, hfoundid]
  | naming t pc' _ | named t pc' _ =>
    obtain ⟨-, ⟨hpc', -⟩, hnone⟩ := hknows
    exact absurd (Option.some.inj (hpc'.symm.trans hpc) ▸ hnone) hfree
  | created t pc' _ _ =>
    obtain ⟨-, ⟨hpc', -⟩, hnone, -⟩ := hknows
    exact absurd (Option.some.inj (hpc'.symm.trans hpc) ▸ hnone) hfree
  | done outcome => exact absurd rfl (hunfinished outcome)

/-- A session that asks again for a consumed code has no kiosk inserted. -/
theorem Enrolling.enrols_again {c : Call} {db db' : Db} {code kioskId : String}
    {secret : Option String} {pc : PairingCode}
    {phase : Enrolling} (hknows : phase.Knows db code) (hpc : db.codes code = some pc)
    (hconsumed : ConsumedBy kioskId pc) :
    c.enrols db' (.enrollDemo code secret phase) = [] := by
  cases phase with
  | created t pc' _ _ =>
    obtain ⟨-, ⟨hpc', -⟩, hnone, -⟩ := hknows
    have hsome := hconsumed.consumed
    rw [← Option.some.inj (hpc'.symm.trans hpc), hnone] at hsome
    cases hsome
  | _ => rfl

theorem Inv.step_again (h : Inv s) {e : Enrolment} {tenant : Tenant} {secret : Option String}
    {phase : Enrolling} (hr : s.Retries K i e tenant secret phase) (draw : Draw) :
    (∃ phase', phase.step K (s.held i) draw s.db e.code secret = some (phase', s.db) ∧
      (phase' = .done (.ok e.kiosk) ∨ (∀ outcome, phase' ≠ .done outcome) ∧ phase'.ahead < phase.ahead)) ∨
    (phase.step K (s.held i) draw s.db e.code secret = none ∧
      (s.held i (.tenant tenant.id) = true ∨ s.held i (.code e.code) = true)) := by
  obtain ⟨pc, hpc, hconsumed⟩ := h.ledger.consumed e hr.enrolled
  have hm := h.registry.pointed.marked hr.marked hr.row
  exact Enrolling.step_again (h.knows i _ hr.session) hr.unfinished hm hr.row hr.active hpc hconsumed
    (hr.secret pc hpc)
    (hm.schema ▸ hr.kiosk)

theorem Inv.served (h : Inv s) : s.Served K where
  advances i e tenant secret phase draw s' hr hstep := by
    obtain ⟨pc, hpc, hconsumed⟩ := h.ledger.consumed e hr.enrolled
    have hlt := (List.getElem?_eq_some_iff.1 hr.session).1
    simp only [step, hr.session, Call.step, Option.map_map] at hstep
    obtain ⟨r, hphase, rfl⟩ := Option.map_eq_some_iff.1 hstep
    rcases h.step_again hr draw with ⟨phase', hphase', hend⟩ | ⟨hnone, -⟩
    · rw [hphase, Option.some.injEq] at hphase'
      subst hphase'
      have henrols : ∀ c db', Call.enrols c db' (.enrollDemo e.code secret phase) = [] :=
        fun c db' => Enrolling.enrols_again (h.knows i _ hr.session) hpc hconsumed
      refine ⟨rfl, by simp [henrols], ?_⟩
      rcases hend with rfl | ⟨hopen, hahead⟩
      · exact .inl (List.getElem?_set_self hlt)
      · refine .inr ⟨phase', ⟨List.getElem?_set_self hlt, hopen, ?_, hr.secret, hr.marked, hr.row,
          hr.active, hr.kiosk⟩, hahead⟩
        exact List.mem_append_left _ hr.enrolled
    · rw [hphase] at hnone
      cases hnone
  waits i e tenant secret phase draw hr hstep := by
    simp only [step, hr.session, Call.step, Option.map_map, Option.map_eq_none_iff] at hstep
    rcases h.step_again hr draw with ⟨phase', hphase', -⟩ | ⟨-, hheld⟩
    · rw [hphase'] at hstep
      cases hstep
    · exact hheld

end Steps

theorem enrolment_limits (ls : List Label) (s : State) (hrun : Machine.run (step K) State.init ls = some s) :
    s.Safe ∧ s.Contained K ∧ s.Served K :=
  have h := Machine.run_inv (fun _ l _ hs h => step_inv l h hs) hrun init_inv
  ⟨h.safe, h.contained, h.served⟩

end

/-! ### A run -/

def sampleDraw : Draw := ⟨0, "tenant-1", ⟨"key", "salt", "encrypt", "iv", "iv", "kiosk-1", "display-1", []⟩⟩

/-- The demo is prepared, and the code `AB` enrols a kiosk. -/
def enrolledRun : List Label :=
  .calls (.prepareDemo true) :: List.replicate 5 (.proceeds 0 sampleDraw) ++
    .initiates "AB" ⟨none, none, none, [], false, 600, true⟩ 0 "secret" ::
    .calls (.enrollDemo true "AB" (some "secret")) :: List.replicate 9 (.proceeds 1 sampleDraw)

/-- A day later the kiosk is cleaned up, and the device asks again. -/
def cleanedRun : List Label :=
  enrolledRun ++ .calls (.cleanupDemo 90000000) :: List.replicate 4 (.proceeds 2 sampleDraw) ++
    .calls (.enrollDemo true "AB" (some "secret")) :: List.replicate 7 (.proceeds 3 sampleDraw)

theorem enrolledRun_runs : ∃ s, Machine.run (step Pairing.plainCrypto) State.init enrolledRun = some s ∧
    s.enrolments.map Enrolment.code = ["AB"] := by
  have h : (Machine.run (step Pairing.plainCrypto) State.init enrolledRun).map
    (fun s => s.enrolments.map Enrolment.code) = some ["AB"] := by decide +kernel
  obtain ⟨s, hs, hcodes⟩ := Option.map_eq_some_iff.1 h
  exact ⟨s, hs, hcodes⟩

theorem enrolment_limits_enrolled :
    ∃ s, Machine.run (step Pairing.plainCrypto) State.init enrolledRun = some s ∧
    s.enrolments.map Enrolment.code = ["AB"] ∧ s.Safe ∧ s.Contained Pairing.plainCrypto ∧
    s.Served Pairing.plainCrypto := by
  obtain ⟨s, hs, hcodes⟩ := enrolledRun_runs
  exact ⟨s, hs, hcodes, enrolment_limits Pairing.plainCrypto enrolledRun s hs⟩

/-- A retry with the right secret fails once the kiosk is cleaned up, and its code stays consumed. -/
theorem retry_refused : ∃ s, Machine.run (step Pairing.plainCrypto) State.init cleanedRun = some s ∧
    s.enrolments.map Enrolment.code = ["AB"] ∧
    s.sessions[3]? = some (.enrollDemo "AB" (some "secret")
      (.done (.error "paired kiosk no longer exists"))) ∧
    (∃ pc, s.db.codes "AB" = some pc ∧ pc.consumed_at.isSome = true ∧
      matchesSecret Pairing.plainCrypto (some "secret") pc.extras.polling_secret_hash = true) ∧
    ∃ tenant, s.db.demo_tenant_id = some tenant.id ∧ s.db.tenant tenant.id = some tenant ∧
    tenant.is_active = true := by
  have h : (Machine.run (step Pairing.plainCrypto) State.init cleanedRun).any (fun s =>
      s.enrolments.map Enrolment.code = ["AB"] ∧
      s.sessions[3]? = some (.enrollDemo "AB" (some "secret")
        (.done (.error "paired kiosk no longer exists"))) ∧
      ((s.db.codes "AB").any fun pc => pc.consumed_at.isSome ∧
        matchesSecret Pairing.plainCrypto (some "secret") pc.extras.polling_secret_hash) ∧
      s.db.demo_tenant_id = some "tenant-1" ∧ s.db.tenant "tenant-1" = some (demoTenant "tenant-1")) =
        true := by decide +kernel
  obtain ⟨s, hs, hfacts⟩ := (Option.any_eq_true _ _).1 h
  obtain ⟨hcodes, hsession, hpc, hmarker, htenant⟩ := of_decide_eq_true hfacts
  obtain ⟨pc, hpc, hrow⟩ := (Option.any_eq_true _ _).1 hpc
  exact ⟨s, hs, hcodes, hsession, ⟨pc, hpc, of_decide_eq_true hrow⟩, demoTenant "tenant-1", hmarker,
    htenant, rfl⟩

end DemoEnrolment
