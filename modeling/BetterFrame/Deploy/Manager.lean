import Mathlib
import BetterFrame.Lib.Run
import BetterFrame.Lib.Text

/-!
# The Node-RED manager

`manager.mjs`: tenants, their runtimes and the state file. Each call runs up to an `await` and goes
on when what it awaits has ended, so a task is a call (or a restart timer) together with the place
where it waits. What concerns one tenant is its `Life`: the object that the state records for it,
the record in `runtimes`, and its children and tasks.
-/

namespace Manager

open Text

/-- The object of a tenant, with what its runtime is started with. -/
structure Tenant where
  uid : Nat
  gid : Nat
  port : Nat
  credentialSecret : String
  adminToken : String
  userDir : String
  tenant_id : String
  slug : String
  name : String
  active : Bool
  server_url : String
  api_key : String
deriving DecidableEq

/-- What the state file holds. -/
structure Stored where
  nextUid : Nat
  tenants : List (String × Tenant)
deriving DecidableEq

/-- A file that was written to its end holds a state. -/
inductive Content where
  | state (stored : Stored)
  | cut
deriving DecidableEq

/-- What `saveState` awaits. -/
inductive Save where
  | write (text : Stored)
  | rename
  | chmod
deriving DecidableEq

/-- What `startRuntime` awaits. -/
inductive FileOp where
  | mkdir
  | writeSettings
  | chownDir
  | chownSettings
deriving DecidableEq

/-- Where `stopRuntime` returns to: an `ensureTenant` call, and the flag it was given, or a
`deleteTenant` call. -/
inductive Caller where
  | ensure (active : Bool)
  | delete
deriving DecidableEq

/-- A pending call or timer. `ensureTenant` keeps its tenant object and the flag of its input; a
start that no call awaits has no flag; a stop keeps the record and the child it waits for. -/
inductive Task where
  | migrating (tenant : Nat) (active : Bool)
  | saving (tenant : Nat) (active : Bool) (save : Save)
  | starting (tenant : Nat) (ops : List FileOp) (call : Option Bool)
  | stopping (wait : Option (Nat × Nat)) (caller : Caller)
  | archiving
  | removing (save : Save)
  | timer (tenant : Nat)
deriving DecidableEq

/-- A killed process runs no more, but its exit has not been reported. -/
inductive Process where
  | running
  | killed
  | exited
deriving DecidableEq

/-- A child and the runtime record that its exit handler closes over. -/
structure Child where
  runtime : Nat
  process : Process
deriving DecidableEq

/-- The record of a started process. -/
structure Runtime where
  tenant : Nat
  child : Option Nat
  stopping : Bool
deriving DecidableEq

/-- What callers see: an activation that passed its checks, and calls that returned. -/
inductive Event where
  | activates
  | deactivated
  | deleted
deriving DecidableEq

/-- One tenant's part of the state. Objects, records and children are named by numbers; the history
is newest first. -/
structure Life where
  recorded : Option Nat
  objects : Nat → Option Tenant
  runtime : Option Nat
  records : Nat → Option Runtime
  children : Nat → Option Child
  tasks : Nat → Option Task
  history : List Event

namespace Life

def empty : Life := ⟨none, fun _ => none, none, fun _ => none, fun _ => none, fun _ => none, []⟩

def setTask (life : Life) (k : Nat) (task : Option Task) : Life :=
  { life with tasks := Function.update life.tasks k task }

theorem setTask_cases {life : Life} {k k' : Nat} {task u : Task}
    (h : (life.setTask k (some task)).tasks k' = some u) :
    u = task ∨ life.tasks k' = some u := by
  simp only [setTask, Function.update_apply] at h
  split at h
  · exact .inl (Option.some.inj h).symm
  · exact .inr h

theorem setTask_none {life : Life} {k k' : Nat} {u : Task} (h : (life.setTask k none).tasks k' = some u) :
    life.tasks k' = some u ∧ k' ≠ k := by
  simp only [setTask, Function.update_apply] at h
  split at h
  · cases h
  · next hne => exact ⟨h, hne⟩

/-- A task that has returned, with what it has to tell. -/
def returned (life : Life) (k : Nat) (events : List Event) : Life :=
  { life.setTask k none with history := events ++ life.history }

/-- An `ensureTenant` call with this flag returns. -/
def ensured (life : Life) (k : Nat) (active : Bool) : Life :=
  life.returned k (if active then [] else [.deactivated])

/-- `state.tenants[id]`. -/
def tenant? (life : Life) : Option Tenant := life.recorded.bind life.objects

/-- `state.tenants[id]?.active`. -/
def active (life : Life) : Bool := life.tenant?.any (·.active)

/-- `tenant.active`, of a tenant object. -/
def flag (life : Life) (o : Nat) : Bool := (life.objects o).any (·.active)

/-- The child of the current record. -/
def child? (life : Life) : Option Nat := (life.runtime.bind life.records).bind (·.child)

/-- `current?.child && current.child.exitCode === null`. -/
def running (life : Life) : Bool := (life.child?.bind life.children).any (·.process ≠ .exited)

/-- `startRuntime` up to its first `await`; `call` is the `ensureTenant` call that awaits it. -/
def startRuntime (life : Life) (k tenant : Nat) (call : Option Bool) : Life :=
  if life.running then
    match call with
    | some active => life.ensured k active
    | none => life.setTask k none
  else life.setTask k (some (.starting tenant [.mkdir, .writeSettings, .chownDir, .chownSettings] call))

/-- The rest of `startRuntime`, after its last `await`: a new record and a new child. -/
def spawn (life : Life) (tenant r c : Nat) : Life :=
  { life with
    runtime := some r
    records := Function.update life.records r (some ⟨tenant, some c, false⟩)
    children := Function.update life.children c (some ⟨r, .running⟩) }

/-- A file operation of `startRuntime` succeeds. -/
def prepared (life : Life) (k r c : Nat) : Option Life :=
  match life.tasks k with
  | some (.starting tenant (_ :: op :: ops) call) =>
    some (life.setTask k (some (.starting tenant (op :: ops) call)))
  | some (.starting tenant [_] call) =>
    if life.records r = none ∧ life.children c = none then
      match call with
      | some active => some ((life.spawn tenant r c).ensured k active)
      | none => some ((life.spawn tenant r c).setTask k none)
    else none
  | _ => none

/-- The exit handler. -/
def exits (life : Life) (c k : Nat) : Option Life :=
  match life.children c with
  | some ⟨r, process⟩ =>
    if process = .exited ∨ life.tasks k ≠ none then none
    else
      match life.records r with
      | some runtime =>
        let life' : Life :=
          { life with
            children := Function.update life.children c (some ⟨r, .exited⟩)
            records := Function.update life.records r (some { runtime with child := none }) }
        some (if !runtime.stopping && life.active then life'.setTask k (some (.timer runtime.tenant))
          else life')
      | none => none
  | none => none

/-- `stopRuntime` up to its `await`: the child is asked to end. -/
def stopRuntime (life : Life) (k : Nat) (caller : Caller) : Life :=
  match life.runtime.bind fun r => (life.records r).map (r, ·) with
  | some (r, runtime) =>
    match runtime.child with
    | some c =>
      { life with
        records := Function.update life.records r (some { runtime with stopping := true }) }.setTask k
        (some (.stopping (some (r, c)) caller))
    | none => life.setTask k (some (.stopping none caller))
  | none => life.setTask k (some (.stopping none caller))

/-- The rest of `stopRuntime`, after the exit of the child or ten seconds. -/
def stopped (life : Life) (wait : Option (Nat × Nat)) (timeout : Bool) : Option Life :=
  match wait with
  | none => some life
  | some (_, c) =>
    match life.children c with
    | some child =>
      if child.process = .exited then some { life with runtime := none }
      else if timeout then
        some { life with
          runtime := none,
          children := Function.update life.children c (some { child with process := .killed }) }
      else none
    | none => none

end Life

structure State where
  nextUid : Nat
  /-- The keys of `state.tenants`. -/
  ids : List String
  lives : String → Life
  temp : Option Content
  file : Option Content

structure Settings where
  MAX_TENANTS : Nat
  DATA : String

/-- The body of a request for a tenant. -/
structure Input where
  tenant_id : String
  slug : String
  name : String
  active : Bool
  server_url : String
  api_key : String

def isHex (c : Char) : Bool := isDigit c || ('a' ≤ c && c ≤ 'f') || ('A' ≤ c && c ≤ 'F')

/-- A UUID in the usual grouping. -/
def validTenantId (value : String) : Bool :=
  match splitOn '-' value.toList with
  | [a, b, c, d, e] =>
    a.length = 8 ∧ b.length = 4 ∧ c.length = 4 ∧ d.length = 4 ∧ e.length = 12 ∧
      (a ++ b ++ c ++ d ++ e).all isHex ∧
      (c.head?.any fun v => '1' ≤ v && v ≤ '5') ∧ (d.head?.any fun v => v ∈ "89abAB".toList)
  | _ => false

def isSlugChar (c : Char) : Bool := isDigit c || ('a' ≤ c && c ≤ 'z')

def validSlug (value : String) : Bool :=
  match value.toList with
  | c :: cs => isSlugChar c && cs.all fun c => isSlugChar c || c = '_' || c = '-'
  | [] => false

def validServerUrl (value : String) : Bool :=
  "http://".toList <+: value.toList || "https://".toList <+: value.toList

/-- The length of a text in UTF-16 units. -/
def utf16Length (value : String) : Nat := (value.toList.map fun c => if c.toNat < 0x10000 then 1 else 2).sum

namespace State

variable (s : State)

/-- `Object.values(state.tenants)`. -/
def tenants : List Tenant := s.ids.filterMap fun id => (s.lives id).tenant?

/-- The state file. -/
def stored : Stored := ⟨s.nextUid, s.ids.filterMap fun id => (s.lives id).tenant?.map (id, ·)⟩

def setLife (id : String) (life : Life) : State := { s with lives := Function.update s.lives id life }

def setTask (id : String) (k : Nat) (task : Option Task) : State := s.setLife id ((s.lives id).setTask k task)

/-- The first port of the range that no tenant has. -/
def nextPort (settings : Settings) : Option Nat :=
  (List.range' 19000 settings.MAX_TENANTS).find? fun port => port ∉ s.tenants.map (·.port)

/-- The errors of `ensureTenant` before it changes anything. -/
def refusal (settings : Settings) (input : Input) : Option String :=
  if ¬ validTenantId input.tenant_id then some "invalid tenant id"
  else if ¬ validSlug input.slug then some "invalid tenant slug"
  else if ¬ validServerUrl input.server_url then some "invalid server url"
  else if utf16Length input.api_key < 16 then some "invalid API key"
  else if s.tenants.any fun tenant => tenant.slug = input.slug && tenant.tenant_id ≠ input.tenant_id then
    some "tenant slug already exists"
  else if (s.lives input.tenant_id).recorded = none ∧ settings.MAX_TENANTS ≤ s.ids.length then
    some "tenant runtime limit reached"
  else none

/-- `state.tenants[id] = tenant`, and the call of `saveState`. -/
def record (id : String) (k tenant : Nat) (active : Bool) : State :=
  let s := { s.setLife id { s.lives id with recorded := some tenant } with
    ids := if (s.lives id).recorded = none then s.ids ++ [id] else s.ids }
  s.setTask id k (some (.saving tenant active (.write s.stored)))

/-- `Object.assign(tenant, …)`. -/
def assign (tenant : Tenant) (input : Input) : Tenant :=
  { tenant with
    tenant_id := input.tenant_id
    slug := input.slug
    name := input.name
    active := input.active
    server_url := input.server_url
    api_key := input.api_key }

/-- The tenant object of a call, and what comes before the first `await`. -/
def begun (o : Nat) (tenant : Tenant) (input : Input) : State :=
  let life := s.lives input.tenant_id
  s.setLife input.tenant_id
    { life with
      objects := Function.update life.objects o (some (assign tenant input))
      history := if input.active then .activates :: life.history else life.history }

/-- `ensureTenant` up to its first `await`. The new object `o` and the two secrets are used for a
new tenant. -/
def ensureTenant (settings : Settings) (input : Input) (k o : Nat) (credentialSecret adminToken : String) :
    State :=
  match s.refusal settings input with
  | some _ => s
  | none =>
    match (s.lives input.tenant_id).recorded, (s.lives input.tenant_id).tenant? with
    | some existing, some tenant =>
      (s.begun existing tenant input).record input.tenant_id k existing input.active
    | _, _ =>
      match s.nextPort settings with
      | none => { s with nextUid := s.nextUid + 1 }  -- "tenant runtime port limit reached"
      | some port =>
        let tenant : Tenant :=
          { uid := s.nextUid, gid := s.nextUid, port, credentialSecret, adminToken
            userDir := settings.DATA ++ "/tenants/" ++ input.tenant_id
            tenant_id := "", slug := "", name := "", active := false, server_url := "", api_key := "" }
        let s := { s with nextUid := s.nextUid + 1 }.begun o tenant input
        if input.slug = "default" then s.setTask input.tenant_id k (some (.migrating o input.active))
        else s.record input.tenant_id k o input.active

/-- `deleteTenant` up to its first `await`. -/
def deleteTenant (id : String) (k : Nat) : State :=
  match (s.lives id).recorded with
  | none => s.setLife id ((s.lives id).returned k [.deleted])
  | some _ => s.setLife id ((s.lives id).stopRuntime k .delete)

/-- `delete state.tenants[id]`, and the call of `saveState`. -/
def remove (id : String) (k : Nat) : State :=
  let s := { s.setLife id { s.lives id with recorded := none } with ids := s.ids.erase id }
  s.setTask id k (some (.removing (.write s.stored)))

/-- What `saveState` does until its next `await`, when the operation that it awaits succeeds. -/
def advance : Save → Option (State × Option Save)
  | .write text => some ({ s with temp := some (.state text) }, some .rename)
  | .rename => s.temp.map fun content => ({ s with temp := none, file := some content }, some .chmod)
  | .chmod => some (s, none)

/-- The last part of `ensureTenant`: the flag is read again, from the tenant object. -/
def ensured (id : String) (k tenant : Nat) (active : Bool) : State :=
  let life := s.lives id
  s.setLife id
    (if life.flag tenant then life.startRuntime k tenant (some active)
    else life.stopRuntime k (.ensure active))

/-- The last part of `migrateLegacyDefault`, where `config` is the secret in the old runtime configuration. -/
def migrated (id : String) (k tenant : Nat) (active : Bool) (config : Option String) : State :=
  let life := s.lives id
  let object := (life.objects tenant).map fun object =>
    { object with credentialSecret := (truthy config).getD object.credentialSecret }
  (s.setLife id { life with objects := Function.update life.objects tenant object }).record id k tenant active

/-- `saveState` goes on in the call `k`. -/
def saved (id : String) (k : Nat) : Option State :=
  match (s.lives id).tasks k with
  | some (.saving tenant active save) =>
    (s.advance save).map fun
      | (s, some save) => s.setTask id k (some (.saving tenant active save))
      | (s, none) => s.ensured id k tenant active
  | some (.removing save) =>
    (s.advance save).map fun
      | (s, some save) => s.setTask id k (some (.removing save))
      | (s, none) => s.setLife id ((s.lives id).returned k [.deleted])
  | _ => none

/-- `stopRuntime` ends in the call `k`. -/
def stopped (id : String) (k : Nat) (timeout userDirExists : Bool) : Option State :=
  match (s.lives id).tasks k with
  | some (.stopping wait caller) =>
    ((s.lives id).stopped wait timeout).map fun life =>
      match caller with
      | .ensure active => s.setLife id (life.ensured k active)
      | .delete =>
        if userDirExists then s.setLife id (life.setTask k (some .archiving))
        else (s.setLife id life).remove id k
  | _ => none

/-- The file operation that `k` awaits fails, and with it the call. -/
def failed (id : String) (k : Nat) (left : Option Content) : Option State :=
  match (s.lives id).tasks k with
  | some (.saving _ _ (.write _)) | some (.removing (.write _)) =>
    some { s.setTask id k none with temp := left }
  | some (.saving ..) | some (.removing _) | some (.migrating ..) | some (.starting ..) | some .archiving =>
    some (s.setTask id k none)
  | _ => none

/-- What `loadState` finds. -/
def loadState : Option Stored :=
  match s.file with
  | none => some ⟨20000, []⟩
  | some (.state stored) => some stored
  | some .cut => none

/-- The start of the manager: `loadState`, and a start for each active tenant. -/
def boot (stored : Stored) (file : Option Content) : State where
  nextUid := stored.nextUid
  ids := stored.tenants.map Prod.fst
  lives id :=
    match stored.tenants.find? (·.1 = id) with
    | some (_, tenant) =>
      let life : Life := { Life.empty with
          recorded := some 0, objects := Function.update Life.empty.objects 0 (some tenant) }
      if tenant.active then life.startRuntime 0 0 none else life
    | none => Life.empty
  temp := none
  file

end State

/-- What happens: a request, the end of something that is awaited, a timer, the exit of a child. -/
inductive Label where
  | ensureTenant (input : Input) (k o : Nat) (credentialSecret adminToken : String)
  | deleteTenant (id : String) (k : Nat)
  | migrated (id : String) (k : Nat) (config : Option String)
  | saved (id : String) (k : Nat)
  | prepared (id : String) (k r c : Nat)
  | stopped (id : String) (k : Nat) (timeout userDirExists : Bool)
  | archived (id : String) (k : Nat)
  | failed (id : String) (k : Nat) (left : Option Content)
  | fires (id : String) (k : Nat)
  | exits (id : String) (c k : Nat)

def step (settings : Settings) (s : State) : Label → Option State
  | .ensureTenant input k o credentialSecret adminToken =>
    if (s.lives input.tenant_id).tasks k = none ∧ (s.lives input.tenant_id).objects o = none then
      some (s.ensureTenant settings input k o credentialSecret adminToken)
    else none
  | .deleteTenant id k => if (s.lives id).tasks k = none then some (s.deleteTenant id k) else none
  | .migrated id k config =>
    match (s.lives id).tasks k with
    | some (.migrating tenant active) => some (s.migrated id k tenant active config)
    | _ => none
  | .saved id k => s.saved id k
  | .prepared id k r c => ((s.lives id).prepared k r c).map (s.setLife id)
  | .stopped id k timeout userDirExists => s.stopped id k timeout userDirExists
  | .archived id k => if (s.lives id).tasks k = some .archiving then some (s.remove id k) else none
  | .failed id k left => s.failed id k left
  | .fires id k =>
    match (s.lives id).tasks k with
    | some (.timer tenant) => some (s.setLife id ((s.lives id).startRuntime k tenant none))
    | _ => none
  | .exits id c k => ((s.lives id).exits c k).map (s.setLife id)

end Manager
