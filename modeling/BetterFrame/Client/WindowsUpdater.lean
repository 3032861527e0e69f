import Mathlib
import BetterFrame.Lib.Crash
import BetterFrame.Client.UpdatePolicy

/-!
# The Windows updater

`windows-updater/src/worker.rs` and what it uses of `lib.rs` and `platform.rs`. `tick` of the service
and `apply` of the detached helper run under the install mutex, so each is one program over the files
of the updater; the process may die at any operation, which is also what a reboot does to it. The rest
of the machine (the clock, the sessions, the files of the desktop, the answers of the server) may be
another one at every look at it: `World.script` is what it will be. The events of `World.log`, latest
first, are what the laws speak of.
-/

namespace WindowsUpdater

open Text Crash UpdatePolicy

/-- Whom the service asks, and as whom. -/
structure Identity where
  server_url : String
  kiosk_key : Option String
  demo : Bool
deriving DecidableEq

/-- An installer that the server offers. -/
structure Artifact where
  release_id : String
  version : String
  sha256 : String
  signature : String
  size_bytes : Nat
  download_url : String
deriving DecidableEq

/-- The answer to a check. -/
structure Check where
  up_to_date : Bool
  update : Option Artifact
  update_policy : Option Policy
  push_request : Option String
deriving DecidableEq

/-- Why a request failed: it is to be made again later, or it is an error. -/
inductive Failure where
  | deferred (seconds : Nat)
  | other (text : String)
deriving DecidableEq

/-- How far an update is. -/
inductive Stage where
  | installing
  | awaitingHealth
  | rollback
deriving DecidableEq

/-- The journal of an update. -/
structure Pending where
  previous : Artifact
  candidate : Artifact
  stage : Stage
  started : Int
  health_started : Option Int
  sessions : List Nat
deriving DecidableEq

/-- How often the version was tried, and when it may be again. -/
structure Attempts where
  version : String
  count : Nat
  request : Option String
  retry_at : Int
deriving DecidableEq

/-- The policy on disk, and the token of its suspension. -/
structure SavedPolicy where
  policy : Policy
  cancellation : Option String
deriving DecidableEq

/-- What the app has reported: its version, and when. -/
structure Health where
  version : String
  at_ : Int
deriving DecidableEq

abbrev File := List UInt8

/-- What one build of the updater has compiled in. -/
structure Build where
  VERSION : String
  PUBLIC_KEY : Option String

structure Request where
  route : String
  query : List (String × String)
  bearer : Option String

structure Response where
  status : Nat
  /-- The delay of `deferred`, its jitter included. -/
  retry : Nat
  check : Option Check
  body : File

/-- The rest of the machine, as it is at one moment. -/
structure Outside where
  now : Int
  /-- The file `update-policy-suspended`. -/
  cancellation : Option String
  health : Option Health
  state : Option Identity
  sessions : List Nat
  send : Request → Option Response

/-- What the service and its helper have done. -/
inductive Event where
  /-- A tick has an update to consider. -/
  | offer (version : String) (request : Option String)
  /-- The journal of an update is written, by the build `author` and for the offer with `request`. -/
  | journal (author : String) (previous candidate : Artifact) (request : Option String)
  /-- The journal has the stage `rollback` now. -/
  | rolledBack
  | stopped
  /-- The policy and the cancellation token that `install` has found. -/
  | checked (saved : Option SavedPolicy) (cancellation : Option String)
  /-- `run_msi` starts on the candidate, with the key that it was verified with. -/
  | msiCandidate (file : Option File) (key : String)
  | msiPrevious (file : Option File) (key : String)
  /-- `run_msi` has installed the previous package. -/
  | restored
  /-- The journal notes the moment at which an installation of its candidate has started. -/
  | installing (started : Int)
  /-- The report by which a display confirms the candidate, the moment that the journal has noted,
  and the clock. -/
  | healthy (health : Option Health) (started now : Int)
  | removed

/-- The files of the service, and what is outside. -/
structure World where
  outside : Outside
  script : List Outside
  identity : Option Identity
  policy : Option SavedPolicy
  attempts : Option Attempts
  pending : Option Pending
  previous_msi : Option File
  candidate_msi : Option File
  log : List Event

/-- What is not in the repository: `semver`, SHA-256, Ed25519, the MSI database, URLs and time zones. -/
structure Platform where
  semver : Semver
  sha256 : File → String
  /-- Key, text and signature. -/
  verify_strict : String → String → String → Bool
  msi_property : File → String → Option String
  discovery_probe : String → Bool
  /-- Weekday and minute of the day. -/
  local_time : String → Int → Option (Nat × Nat)

def TARGET : String := "windows-x64"
def MAX_BYTES : Nat := 512 * 1024 * 1024
def UPGRADE_CODE : String := "\x7bC57DAC79-D926-492A-800D-190630390291\x7d"

/-- The worker's programs: they fail, and each of their operations may. -/
abbrev Tick := Prog Failure World

section Files

variable (P : Platform)

/-- Size, digest and signature of an installer. -/
def verify_file (file : Option File) (info : Artifact) (public_key : String) : Except String Unit :=
  match file with
  | none => .error "cannot open MSI"
  | some bytes =>
    if bytes.length ≠ info.size_bytes ∨ info.size_bytes > MAX_BYTES then .error "MSI size mismatch"
    else if P.sha256 bytes ≠ info.sha256 then .error "MSI digest mismatch"
    else if P.verify_strict public_key (P.sha256 bytes) (trim info.signature) then .ok ()
    else .error "MSI publisher signature invalid"

/-- What `eq_ignore_ascii_case` compares. -/
def upper (text : String) : List Char := text.toList.map Char.toUpper

/-- The installer's product must be this one, in the offered version. -/
def validate_msi (file : Option File) (version : String) : Except String Unit :=
  match file with
  | none => .error "cannot read verified MSI database"
  | some bytes =>
    if (P.msi_property bytes "UpgradeCode").map upper ≠ some (upper UPGRADE_CODE) ∨
        P.msi_property bytes "BF_RELEASE_VERSION" ≠ some version ∨
        P.msi_property bytes "BF_UPDATE_TARGET" ≠ some TARGET then
      .error "signed MSI does not match this product, platform and release"
    else .ok ()

def isReleaseId (id : String) : Bool :=
  id ≠ "" && id.toList.all fun c =>
    isDigit c || ('a' ≤ c && c ≤ 'z') || ('A' ≤ c && c ≤ 'Z') || c = '-'

/-- What an offer must satisfy before it is downloaded. -/
def validate_offer (info : Artifact) (current : String) : Except String Unit :=
  if !is_version_upgrade P.semver info.version current then .error "offered version is not an upgrade"
  else if info.size_bytes = 0 ∨ info.size_bytes > MAX_BYTES then .error "invalid MSI size"
  else if !isReleaseId info.release_id then .error "invalid release ID"
  else if info.download_url ≠ "/api/kiosk/firmware/download/" ++ info.release_id ∧
      info.download_url ≠ "/api/firmware/public/download/" ++ info.release_id then
    .error "artifact is not a BF download route"
  else .ok ()

/-- The policy's answer at the local time of its zone. -/
def window_open (policy : Policy) (now : Int) : Bool :=
  match P.local_time policy.schedule.timezone now with
  | none => false
  | some (day, minute) => policy.schedule.allows day minute

/-- The agent's report is of this installation and not from the future. -/
def healthy (outside : Outside) (pending : Pending) : Bool :=
  match outside.health with
  | none => false
  | some h => h.version = pending.candidate.version && pending.started ≤ h.at_ && h.at_ ≤ outside.now + 60

end Files

/-! ### Operations -/

section Operations

variable {ε : Type}

/-- A glance at the world outside, which the script may have changed. -/
def look : Prog ε World Outside := .look World.outside World.script fun outside script s =>
  { s with outside, script }

/-- A result that may be an error. -/
def liftExcept {α : Type} (f : String → ε) : Except String α → Prog ε World α
  | .ok a => pure a
  | .error e => .throw (f e)

/-- `write("pending.json", …)`. -/
def writePending (pending : Pending) (e : ε) : Prog ε World Unit :=
  .write (fun s => { s with pending := some pending }) e

/-- `write("pending.json", …)` with the stage `rollback`. -/
def writeRollback (pending : Pending) (e : ε) : Prog ε World Unit :=
  .write (fun s => { s with
    pending := some { pending with stage := .rollback }, log := .rolledBack :: s.log }) e

/-- `write("pending.json", …)` with a new `started`. -/
def writeStarted (pending : Pending) (e : ε) : Prog ε World Unit :=
  .write (fun s => { s with pending := some pending, log := .installing pending.started :: s.log }) e

/-- The pending installation is over. -/
def removePending (e : ε) : Prog ε World Unit :=
  .write (fun s => { s with pending := none, log := .removed :: s.log }) e

/-- Writes an event of the history. -/
def event (e : Event) : Prog ε World Unit := .note fun s => { s with log := e :: s.log }

/-- An operation outside the updater's files, which may fail. -/
def external (e : ε) : Prog ε World Unit := .write id e

end Operations

/-! ### The service -/

section Tick

variable (P : Platform) (build : Build)

def io : Failure := .other "io error"

def lift {α : Type} : Except String α → Tick α := liftExcept Failure.other

/-- A check's answer: a rate limit, a failure or the offer. -/
def decode (response : Response) : Except Failure Check :=
  if response.status = 429 then .error (.deferred response.retry)
  else if response.status < 200 ∨ 300 ≤ response.status then .error (.other "BF check HTTP")
  else
    match response.check with
    | none => .error (.other "invalid update metadata")
    | some check =>
      if !check.up_to_date && check.update.isNone then .error (.other "missing update metadata")
      else .ok check

/-- Refuses an origin that may not be asked. -/
def endpoint (origin : String) : Tick Unit :=
  if P.discovery_probe origin then pure () else .throw (.other "invalid server origin")

def query (current : String) : List (String × String) := [("target", TARGET), ("current", current)]

/-- The check without a key. -/
def public_check (origin : String) (policy : Policy) (current : String) : Tick Check := do
  endpoint P origin
  let o ← look
  match o.send ⟨origin ++ "/api/firmware/public/check", query current ++ policy.selection false, none⟩ with
  | none => .throw (.other "request failed")
  | some response =>
    match decode response with
    | .error e => .throw e
    | .ok check => pure { check with push_request := none, update_policy := none }

/-- Without an answer of the authenticated route. -/
def recover (identity : Identity) (policy : Option Policy) (current : String) : Tick Check :=
  match policy.filter fun p => p.server = identity.server_url with
  | none => .throw (.other "recovery requires a saved policy for this BF origin")
  | some policy => public_check P identity.server_url policy current

/-- The check with the key, and the recovery when there is no key or no answer. -/
def check (identity : Identity) (policy : Option Policy) (current : String) : Tick Check :=
  if identity.demo then .throw (.other "updates disabled in demo mode")
  else
    match truthy identity.kiosk_key with
    | none => recover P identity policy current
    | some key => do
      endpoint P identity.server_url
      let o ← look
      match o.send ⟨identity.server_url ++ "/api/kiosk/firmware/check", query current, some key⟩ with
      | none => recover P identity policy current
      | some response =>
        match decode response with
        | .ok check =>
          pure { check with update_policy := check.update_policy.map fun p =>
            { p with server := identity.server_url } }
        | .error (.deferred seconds) => .throw (.deferred seconds)
        | .error (.other _) => recover P identity policy current

/-- The response to a download: the authenticated route, else the public one. -/
def downloadResponse (identity : Identity) (info : Artifact) : Tick Response := do
  endpoint P identity.server_url
  let o ← look
  let first := identity.kiosk_key.bind fun key =>
    (o.send ⟨identity.server_url ++ "/api/kiosk/firmware/download/" ++ info.release_id, [],
          some key⟩).filter fun r =>
      (200 ≤ r.status ∧ r.status < 300) ∨ r.status = 429
  match first with
  | some r => pure r
  | none => do
    let o ← look
    match o.send ⟨identity.server_url ++ "/api/firmware/public/download/" ++ info.release_id, [], none⟩ with
    | none => .throw (.other "request failed")
    | some r => pure r

/-- Downloads to a staged file, which `publish` puts in place once it is verified. -/
def download (identity : Identity) (info : Artifact) (key : String) (publish : File → World → World) :
    Tick Unit := do
  let response ← downloadResponse P identity info
  if response.status = 429 then .throw (.deferred response.retry)
  else if response.status < 200 ∨ 300 ≤ response.status then .throw (.other "BF download HTTP")
  else do
    -- at most one byte too many is read
    let bytes := response.body.take (min info.size_bytes MAX_BYTES + 1)
    if bytes.length ≠ info.size_bytes then .throw (.other "MSI body size mismatch")
    else do
      lift (verify_file P (some bytes) info key)
      .write (publish bytes) io

/-- Copies the updater, starts the copy as the helper and stops the service. -/
def handoff : Tick Unit := external (.other "cannot start the install worker")

/-- The journal goes to the helper as one to roll back. -/
def handOverRollback (pending : Pending) : Tick Nat := do
  writeRollback pending io
  handoff
  return 1

/-- A tick that finds a journal. -/
def tickPending (pending : Pending) : Tick Nat := do
  if pending.stage = .awaitingHealth ∧ build.VERSION = pending.candidate.version then do
    let o ← look
    if healthy o pending then do
      event (.healthy o.health pending.started o.now)
      removePending io
      return 120
    else do
      let o ← look
      if o.sessions = [] then return 30
      else do
        let o ← look
        let start := pending.health_started.getD o.now
        writePending { pending with health_started := some start } io
        let o ← look
        if o.now - start < 300 then return 15
        else handOverRollback { pending with health_started := some start }
  else handOverRollback pending

/-- Where the server is, from the desktop's state or from the last time it could be read. -/
def findIdentity : Tick (Option Identity) := do
  let o ← look
  match o.state with
  | some identity => do
    endpoint P identity.server_url
    .write (fun s => { s with identity := some identity }) io
    return some identity
  | none => .read World.identity none

/-- The policy of an answered check, kept for the next recovery. -/
def writePolicy (policy : Policy) (cancellation : Option String) : Tick Unit :=
  .write (fun s => { s with policy := some ⟨policy, cancellation⟩ }) io

/-- What a tick goes on with once there is an update it may install. -/
structure Offer where
  identity : Identity
  cancellation : Option String
  policy : Policy
  candidate : Artifact
  push_request : Option String

/-- An update that the policy and the window allow now, or the delay to the next tick. -/
def findOffer : Tick (Nat ⊕ Offer) := do
  match ← findIdentity P with
  | none => return .inl 120
  | some identity =>
    if identity.demo then return .inl 120
    else do
      let o ← look
      let cancellation := o.cancellation
      let saved ← .read World.policy none
      let policy := (saved.filter fun saved => saved.cancellation = cancellation).map SavedPolicy.policy
      let offered ← check P identity policy build.VERSION
      let o ← look
      if o.cancellation ≠ cancellation then return .inl 15
      else do
        (match offered.update_policy with
          | some next => writePolicy next cancellation
          | none => pure ())
        match (offered.update_policy.orElse fun _ => policy).filter fun p =>
          p.server = identity.server_url with
        | none => .throw (.other "no saved update policy")
        | some policy =>
          if offered.up_to_date then return .inl 120
          else do
            let o ← look
            if offered.push_request.isNone && !window_open P policy o.now then return .inl 120
            else
              match offered.update with
              | none => .throw (.other "missing candidate")
              | some candidate => do
                lift (validate_offer P candidate build.VERSION)
                event (.offer candidate.version offered.push_request)
                return .inr ⟨identity, cancellation, policy, candidate, offered.push_request⟩

/-- The attempts on disk, none of them without the file. -/
def readAttempts : Tick Attempts := do
  match ← Prog.get World.attempts with
  | none => return ⟨"", 0, none, 0⟩
  | some _ => do
    match ← .read World.attempts none with
    | none => .throw (.other "invalid installation attempt history")
    | some attempts => return attempts

/-- The attempts at this update, which start again with another version or push request. -/
def Offer.attempts (offer : Offer) (attempts : Attempts) : Attempts :=
  if attempts.version ≠ offer.candidate.version ∨
    (offer.push_request.isSome ∧ attempts.request ≠ offer.push_request) then
    ⟨offer.candidate.version, 0, offer.push_request, 0⟩
  else attempts

/-- The full installer of the running release, to go back to. -/
def fetchPrevious (offer : Offer) (key : String) : Tick Artifact := do
  let previous ← public_check P offer.identity.server_url
    { offer.policy with firmware_target_version := some build.VERSION } ""
  match previous.update with
  | none => .throw (.other "installed release is not available on BF for rollback")
  | some previous =>
    if previous.version ≠ build.VERSION then .throw (.other "rollback release version mismatch")
    else do
      lift (validate_offer P previous "")
      let file ← .read World.previous_msi none
      (match verify_file P file previous key with
        | .ok () => pure ()
        | .error _ =>
          download P offer.identity previous key fun bytes s => { s with previous_msi := some bytes })
      let file ← .read World.previous_msi none
      lift (validate_msi P file previous.version)
      return previous

/-- The installer downloaded, verified and validated. -/
def fetchCandidate (offer : Offer) (key : String) : Tick Unit := do
  download P offer.identity offer.candidate key fun bytes s => { s with candidate_msi := some bytes }
  let file ← .read World.candidate_msi none
  lift (validate_msi P file offer.candidate.version)

/-- Whether the decision still stands after the downloads, or the delay to the next tick. -/
def recheck (offer : Offer) : Tick (Option Nat) := do
  let o ← look
  if o.cancellation ≠ offer.cancellation then return some 15
  else do
    let fresh ← check P offer.identity (some offer.policy) build.VERSION
    let o ← look
    if o.cancellation ≠ offer.cancellation then return some 15
    else do
      let o ← look
      if o.state.any fun current => current.demo || current.server_url ≠ offer.identity.server_url then
        return some 120
      else do
        (match fresh.update_policy with
          | some next => writePolicy next offer.cancellation
          | none => pure ())
        let o ← look
        if fresh.up_to_date ||
            !(fresh.update.any fun a => a.sha256 = offer.candidate.sha256 ∧
              a.version = offer.candidate.version) ||
            (fresh.push_request.isNone && !window_open P (fresh.update_policy.getD offer.policy) o.now) then
          return some 120
        else return none

/-- Counts the attempt and writes the journal. -/
def beginInstall (offer : Offer) (attempts : Attempts) (previous : Artifact) : Tick Nat := do
  let o ← look
  .write (fun s => { s with
    attempts := some { attempts with count := attempts.count + 1, retry_at := o.now + 1800 } }) io
  let o ← look
  .write (fun s => { s with
    pending := some ⟨previous, offer.candidate, .installing, o.now, none, []⟩
    log := .journal build.VERSION previous offer.candidate offer.push_request :: s.log }) io
  handoff
  return 1

/-- A tick that finds no journal. -/
def tickOffer : Tick Nat := do
  match ← findOffer P build with
  | .inl delay => return delay
  | .inr offer => do
    let attempts ← readAttempts
    let attempts := offer.attempts attempts
    let o ← look
    if 3 ≤ attempts.count ∨ o.now < attempts.retry_at then return 120
    else
      match build.PUBLIC_KEY with
      | none => .throw (.other "this build has no embedded publisher key; automatic installation disabled")
      | some key => do
        let previous ← fetchPrevious P build offer key
        fetchCandidate P offer key
        match ← recheck P build offer with
        | some delay => return delay
        | none => beginInstall build offer attempts previous

/-- One round of the worker: it reports the seconds until the next one. -/
def tick : Tick Nat := do
  match ← Prog.get World.pending with
  | some _ => do
    match ← .read World.pending none with
    | none => .throw (.other "invalid update journal")
    | some pending => tickPending build pending
  | none => tickOffer P build

end Tick

/-! ### The helper -/

section Apply

variable (P : Platform)

/-- Restores the previous package and gives the update up. -/
def rollback (pending : Pending) (key : String) : Prog String World Unit := do
  writeRollback pending "io error"
  external "cannot enumerate client processes"
  .note fun s => { s with log := .msiPrevious s.previous_msi key :: s.log }
  .write (fun s => { s with log := .restored :: s.log }) "MSI installation failed"
  external "installed executable probe failed"
  removePending "io error"

/-- The five minutes in which the display has to report that it is healthy; `n` looks are left. -/
def awaitHealth (pending : Pending) : Nat → Prog (String × Pending) World Unit
  | 0 => .throw ("new display failed to confirm local health within five minutes", pending)
  | n + 1 => do
    let o ← look
    if healthy o pending then do
      event (.healthy o.health pending.started o.now)
      removePending ("io error", pending)
    else do
      let o ← look
      if o.sessions = [] then return ()
      else awaitHealth pending n

/-- Installs the candidate. An error comes with the journal as it is by then. -/
def install (pending : Pending) (key : String) : Prog (String × Pending) World Unit := do
  let file ← .read World.candidate_msi none
  liftExcept (·, pending) (verify_file P file pending.candidate key)
  let file ← .read World.candidate_msi none
  liftExcept (·, pending) (validate_msi P file pending.candidate.version)
  let o ← look
  let sessions := o.sessions
  let o ← look
  let pending := { pending with sessions, started := o.now }
  writeStarted pending ("io error", pending)
  external ("cannot enumerate client processes", pending)
  event .stopped
  let o ← look
  let pending := { pending with sessions := sessions ++ o.sessions.filter (· ∉ sessions) }
  writePending pending ("io error", pending)
  let o ← look
  let saved ← .read World.policy none
  event (.checked saved o.cancellation)
  if saved.all fun saved => saved.cancellation ≠ o.cancellation then
    .throw ("policy changed before installation", pending)
  else do
    .note fun s => { s with log := .msiCandidate s.candidate_msi key :: s.log }
    external ("MSI installation failed", pending)
    external ("installed executable probe failed", pending)
    external ("installed executable probe failed", pending)
    external ("cannot start updater service", pending)
    let pending := { pending with stage := .awaitingHealth }
    writePending pending ("io error", pending)
    let o ← look
    if o.sessions = [] then return ()
    else do
      let o ← look
      let pending := { pending with health_started := some o.now }
      writePending pending ("io error", pending)
      awaitHealth pending 150

/-- `apply_inner`, from the mutex on. -/
def apply (build : Build) : Prog String World Unit := do
  match ← .read World.pending none with
  | none => .throw "missing update journal"
  | some pending =>
    match build.PUBLIC_KEY with
    | none => .throw "missing embedded publisher key"
    | some key => do
      let file ← .read World.previous_msi none
      liftExcept id (verify_file P file pending.previous key)
      let file ← .read World.previous_msi none
      liftExcept id (validate_msi P file pending.previous.version)
      if pending.stage = .rollback then rollback pending key
      else (install P pending key).orElse fun (_, pending) => rollback pending key

end Apply

/-! ### Runs -/

/-- What runs next, and what it finds outside. -/
inductive Action where
  | tick (build : Build) (script : List Outside) (plan : List Fault)
  | apply (build : Build) (script : List Outside) (plan : List Fault)
  /-- The rest of the machine goes on; a cancellation is written, for one. -/
  | outside (o : Outside)

def step (P : Platform) (s : World) : Action → Option World
  | .tick build script plan => some (tick P build { s with script } plan).world
  | .apply build script plan => some (apply P build { s with script } plan).world
  | .outside o => some { s with outside := o }

/-- A machine whose updater has not run yet. -/
def init (outside : Outside) (previous_msi candidate_msi : Option File) (policy : Option SavedPolicy) :
    World :=
  ⟨outside, [], none, policy, none, none, previous_msi, candidate_msi, []⟩

end WindowsUpdater
