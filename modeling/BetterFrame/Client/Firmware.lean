import BetterFrame.Client.UpdateDownload
import BetterFrame.Client.UpdateGuard
import BetterFrame.Client.UpdatePolicy

/-!
# App updates on Linux

`platform/linux/firmware.rs`, the passes of `ui.rs` that call it and the script that the service runs
before it starts the app, `betterframe-firmware-rollback.sh`. `World` is what these programs share: the
installed executable, its backup, the marker of a pending candidate and the count of its starts. The
process may die at any operation; other threads of the app may confirm the running binary between two
operations of a pass (`others`).
-/

namespace Firmware

open Text Crash UpdatePolicy UpdateDownload UpdateGuard

abbrev Bytes := List UInt8

/-- What a path of an executable holds. -/
inductive Contents where
  | whole (bytes : Bytes)
  /-- A file of which only a part is written. -/
  | torn
deriving DecidableEq

/-- The release that a check offers. -/
structure UpdateInfo where
  version : String
  sha256 : String
  signature : String
  size_bytes : Nat
  download_url : String
deriving DecidableEq

/-- The answer to a check. -/
structure CheckResponse where
  up_to_date : Bool
  update : Option UpdateInfo
deriving DecidableEq

/-- The marker of an update that is not confirmed. -/
structure Marker where
  version : String
  /-- In the markers of the setup only. -/
  sha256 : Option String
  mtime : Int
deriving DecidableEq

/-- The rest of the machine, as it is at one moment. -/
structure Outside where
  now : Int
  net : Net
  /-- `request_cancel` was called since the pass began. -/
  canceled : Bool
  /-- `auto_updates_allowed`. -/
  allowed : Bool
  /-- How often other threads of the app call `mark_firmware_applied` here. -/
  confirmations : Nat

/-- The files of the app, the process that runs, and what is outside. -/
structure World where
  bin : Contents
  prev : Option Contents
  /-- The download, at `bin` with the extension `new`. -/
  new : Option Contents
  marker : Option Marker
  /-- The text of the count of starts. -/
  attempts : Option String
  guard : Guard
  /-- The binary that the app runs. -/
  running : Option Bytes
  outside : Outside
  script : List Outside
  /-- The binaries that were confirmed, latest first. -/
  confirmed : List Bytes

/-- What is not in the repository: `semver`, SHA-256, Ed25519, and what is compiled into a binary. -/
structure Platform where
  semver : Semver
  sha256 : Bytes → String
  /-- Key, text and signature. -/
  verify_signature_with_key : String → String → String → Bool
  kiosk_app_version : Bytes → String
  signing_key : Bytes → Option String

def MAX_FIRMWARE_BYTES : Nat := 256 * 1024 * 1024
def MAX_ATTEMPTS : Nat := 3
def MAX_AGE_SECONDS : Int := 120

/-- The version without the leading `v`s. -/
def plainVersion (version : String) : List Char := version.toList.dropWhile (· = 'v')

section Download

/-- The body, of which `bytes` are read. -/
def readBody (cancelable : Bool) (expected : Nat) (bytes : Bytes) : List Chunk → Except String Bytes
  | [] => finish
  | chunk :: chunks =>
    if cancelable && chunk.canceled then .error "firmware update canceled after channel change"
    else
      match chunk.data with
      | none => .error "download body: io error"
      | some [] => finish
      | some data =>
        if expected - bytes.length < data.length then .error "size mismatch: download exceeded limit"
        else readBody cancelable expected (bytes ++ data) chunks
where
  finish : Except String Bytes :=
    if bytes.length ≠ expected then .error "size mismatch: body too short" else .ok bytes

def read_firmware_body (cancelable : Bool) (expected_size : Nat) (body : List Chunk) : Except String Bytes :=
  if MAX_FIRMWARE_BYTES < expected_size then .error "firmware size exceeds byte limit"
  else readBody cancelable expected_size [] body

end Download

section Programs

variable {ε : Type}

/-- The machine at the next moment. -/
def look : Prog ε World Outside := .look World.outside World.script fun outside script s =>
  { s with outside, script }

/-- A result without effects. -/
def lift {α : Type} (r : Except String α) : Prog String World α :=
  match r with
  | .ok a => pure a
  | .error e => .throw e

/-- A program on the attempt file. -/
def guarded {α : Type} (x : Prog ε Guard α) : Prog ε World α :=
  .zoom World.guard (fun guard s => { s with guard }) x

/-! ### Confirmation -/

variable (P : Platform) (self : Bytes)

/-- Whether the marker is that of the binary `self`. -/
def Marker.isFor (marker : Marker) : Bool :=
  match marker.sha256 with
  | some expected => P.sha256 self = expected
  | none => marker.version ≠ "" ∧ plainVersion marker.version = plainVersion (P.kiosk_app_version self)

/-- Under the marker's lock. An error is what the source gives up on with `None`. -/
def confirm_pending_marker : Prog Unit World String := do
  match ← .read World.marker none with
  | none => .throw ()
  | some marker =>
    if !marker.isFor P self then .throw ()
    else do
      .write (fun s => { s with marker := none, confirmed := self :: s.confirmed }) ()
      (Prog.write (fun s => { s with attempts := none }) ()).ignore
      return marker.version

/-- Clears the failures of the version, if it is known. -/
def recordApplied (version : String) : Prog ε World Unit :=
  if version = "" then pure () else guarded (record_success "firmware" version)

/-- Confirms the update that runs. -/
def mark_firmware_applied : Prog Unit World Unit := do
  let version ← confirm_pending_marker P self
  recordApplied version

/-- Other threads confirm the update that often. -/
def markTimes : Nat → Prog ε World Unit
  | 0 => pure ()
  | n + 1 => do
    (mark_firmware_applied P self).orElse fun _ => pure ()
    markTimes n

/-- Other threads of the app at work. -/
def others : Prog ε World Unit := do
  let o ← look
  markTimes P self o.confirmations

/-! ### A pass -/

/-- The offered version is newer than the app that runs. -/
def ensure_upgrade (info : UpdateInfo) : Except String Unit :=
  if is_version_upgrade P.semver info.version (P.kiosk_app_version self) then .ok ()
  else .error "refusing firmware downgrade or reinstall"

/-- The signature is by the key that was built in. -/
def verify_signature (sha256 signature : String) : Except String Unit :=
  match (P.signing_key self).filter fun key => trim key ≠ "" with
  | none => .error "signature verify: OTA disabled: vendor signing key was not embedded in this build"
  | some key =>
    if P.verify_signature_with_key key sha256 signature then .ok () else .error "signature verify: verify"

def removeNew : Prog String World Unit := .ignore (.write (fun s => { s with new := none }) "")

/-- Removes the download of a pass that was canceled, which only those of an enrolled display can be. -/
def cleanupCanceled (cancelable : Bool) : Prog String World Bool := do
  let o ← look
  if cancelable && o.canceled then do
    removeNew
    return true
  else return false

/-- Stops an update that was cancelled. -/
def checkCancel (cancelable : Bool) : Prog String World Unit := do
  if ← cleanupCanceled cancelable then .throw "firmware update canceled after channel change" else pure ()

def downloadBody (cancelable : Bool) (key : Option String) (info : UpdateInfo) : Prog String World Bytes := do
  let o ← look
  let response ← lift (get o.net key info.download_url 0)
  if !success response.status then .throw ("download HTTP " ++ toString response.status)
  else
    (lift (read_firmware_body cancelable info.size_bytes response.body)).orElse fun e => do
      let _ ← cleanupCanceled cancelable
      .throw e

/-- The verified bytes of the update. -/
def fetch (cancelable : Bool) (key : Option String) (info : UpdateInfo) : Prog String World Bytes := do
  lift (ensure_upgrade P self info)
  let bytes ← downloadBody cancelable key info
  checkCancel cancelable
  if P.sha256 bytes ≠ info.sha256 then .throw "sha256 mismatch"
  else do
    lift (verify_signature P self info.sha256 info.signature)
    checkCancel cancelable
    return bytes

/-- Writes the file with the extension `new`; `apply` goes on without a sync. -/
def writeNew (cancelable : Bool) (bytes : Bytes) : Prog String World Unit := do
  .write (fun s => { s with new := some .torn }) "open: io error"
  .op
    { ok := fun s => (.ok (), { s with new := some (.whole bytes) })
      fail := fun s => (.error "write: io error", s)
      torn := id }
  if cancelable then .ignore (.write id "sync app: io error") else .write id "sync app: io error"

/-- Copies the installed executable to a temporary file, which is renamed to the backup. -/
def stash_previous_binary : Prog String World Unit := do
  let copy ← .op ⟨fun s => (.ok s.bin, s), fun s => (.error "stash previous app: io error", s), id⟩
  .write (fun s => { s with prev := some copy }) "stash previous app: io error"

/-- Under the marker's lock. The temporary file is not in the model. -/
def persist_pending_marker (version : String) : Prog String World Unit := do
  .write id "create temporary app rollback marker: io error"
  let o ← look
  .write id "persist app rollback marker: io error"
  .write (fun s => { s with attempts := none }) "reset app startup attempts: io error"
  .write (fun s => { s with marker := some ⟨version, none, o.now⟩ }) "publish app rollback marker: io error"

def write_pending_marker (version : String) : Prog String World Unit := do
  stash_previous_binary
  others P self
  persist_pending_marker version

/-- Puts the download in place. -/
def renameNew (version : String) : Prog String World Unit :=
  .op
    { ok := fun s =>
        match s.new with
        | none => (.error "rename: io error", s)
        | some contents =>
          (.ok (), { s with
            bin := contents, new := none
            guard := { s.guard with history := .replaced "firmware" version :: s.guard.history } })
      fail := fun s => (.error "rename: io error", s)
      torn := id }

/-- What `apply` and `apply_public` have in common. A pass that returns without an error has swapped the
binary and exits. -/
def applyUpdate (cancelable : Bool) (key : Option String) (info : UpdateInfo) : Prog String World Unit := do
  let bytes ← fetch P self cancelable key info
  writeNew cancelable bytes
  checkCancel cancelable
  others P self
  write_pending_marker P self info.version
  others P self
  renameNew info.version
  others P self

def apply (key : String) (info : UpdateInfo) : Prog String World Unit :=
  applyUpdate P self true (some key) info

def apply_public (info : UpdateInfo) : Prog String World Unit := applyUpdate P self false none info

/-- The update that the answer to a check offers. -/
def newer_update (check : CheckResponse) : Option UpdateInfo :=
  if check.up_to_date then none
  else check.update.filter fun update => is_version_upgrade P.semver update.version (P.kiosk_app_version self)

/-- A pass up to its error; it returns without an update, or the binary is swapped. -/
def attempt (info : UpdateInfo) (key : String) (force : Bool) : Prog String World Bool := do
  match ← guarded (blocked "firmware" info.version force) with
  | some _ => return false
  | none => do
    let o ← look
    if !force && !o.allowed then return false
    else do
      apply P self key info
      return true

/-- Whether the process exits, after an update of the enrolled app or of the recovery thread. -/
def run_firmware_update_worker (check : CheckResponse) (key : String) (force : Bool) : Prog ε World Bool :=
  match newer_update P self check with
  | none => pure false
  | some info =>
    (attempt P self info key force).orElse fun error => do
      if is_deferred error then return false
      else do
        let _ ← guarded (record_failure "firmware" info.version error)
        return false

/-- The update before the app's window opens, which returns whether the app is to restart. -/
def prebootAttempt (check : CheckResponse) : Prog String World Bool := do
  let o ← look
  if !o.allowed then return false
  else
    match newer_update P self check with
    | none => return false
    | some info => do
      let o ← look
      if !o.allowed then return false
      else do
        apply_public P self info
        return true

/-- The update before pairing. -/
def prebootUpdate (check : CheckResponse) : Prog ε World Bool :=
  (prebootAttempt P self check).orElse fun _ => return false

end Programs

/-! ### The script -/

/-- Failures are put up with. -/
def clear_bookkeeping : Prog Nat World Unit := do
  .ignore (.write (fun s => { s with marker := none }) 1)
  .ignore (.write (fun s => { s with attempts := none }) 1)

/-- `cp -f` of the backup to the executable, in place. -/
def restorePrevious (previous : Contents) : Prog Nat World Unit := do
  .write (fun s => { s with bin := .torn }) 1
  .op
    { ok := fun s =>
        (.ok (), { s with
          bin := previous
          guard := { s.guard with
            history := (s.marker.map fun m => .rolledBack "firmware" m.version).toList ++ s.guard.history } })
      fail := fun s => (.error 1, s)
      torn := id }

/-- Restores the app from before the update; the script fails where there is none. -/
def rollback : Prog Nat World Unit := do
  match ← .get World.prev with
  | some previous => do
    restorePrevious previous
    .write id 1
    clear_bookkeeping
  | none => clear_bookkeeping

/-- The count of starts; what is not a number is none. -/
def parseAttempts (text : String) : Nat :=
  if text = "" ∨ text.toList.any (!isDigit ·) then 0 else digitsValue text.toList

/-- Starts the deadline with the first start. -/
def touchMarker (attempts : Nat) : Prog Nat World Bool :=
  if attempts ≠ 0 then return true
  else
    (do
      let o ← look
      .write (fun s => { s with marker := s.marker.map fun m => { m with mtime := o.now } }) 1
      return true : Prog Nat World Bool).orElse fun _ => return false

/-- `printf` into the count of starts, which is truncated first. -/
def recordStart (attempts : Nat) : Prog Nat World Bool :=
  (do
    .write (fun s => { s with attempts := some "" }) 1
    .write (fun s => { s with attempts := some (toString attempts) }) 1
    return true : Prog Nat World Bool).orElse fun _ => return false

/-- A start of an update that is not confirmed, the `attempts`-th. -/
def startCandidate (attempts : Nat) : Prog Nat World Unit := do
  let mtime ← .read (fun s => (s.marker.map Marker.mtime).getD 0) 0
  let o ← look
  if MAX_AGE_SECONDS ≤ o.now - mtime then rollback
  else if MAX_ATTEMPTS ≤ attempts then rollback
  else if ← recordStart (attempts + 1) then pure () else rollback

/-- An error is the exit status, with which the service does not start the app. -/
def rollbackScript : Prog Nat World Unit := do
  match ← .get World.marker with
  | none => clear_bookkeeping
  | some _ => do
    let text ← .read (fun s => s.attempts.getD "0") "0"
    let attempts := parseAttempts text
    if ← touchMarker attempts then startCandidate attempts else rollback

/-! ### Runs -/

abbrev Env := UpdateGuard.Env Outside

/-- What runs next, and in which environment. -/
inductive Action where
  /-- A pass of the enrolled app, or of the recovery thread with an empty key. -/
  | worker (check : CheckResponse) (key : String) (force : Bool) (env : Env)
  | preboot (check : CheckResponse) (env : Env)
  | confirm (env : Env)
  /-- The service starts the app. -/
  | start (env : Env)
  | die

def World.enter (s : World) (env : Env) : World :=
  { s with script := env.script, guard := s.guard.enter env }

/-- After a program of the process, which exits if it returns `true`. -/
def settle {ε : Type} : Outcome ε World Bool → World
  | .done exits s _ => if exits then { s with running := none } else s
  | .thrown _ s _ => s
  | .crashed s => { s with running := none }

/-- The app runs once the script has succeeded and the executable is whole. -/
def launch : Outcome Nat World Unit → World
  | .done _ s _ =>
    match s.bin with
    | .whole bytes => { s with running := some bytes }
    | .torn => s
  | .thrown _ s _ => s
  | .crashed s => s

def step (P : Platform) (s : World) : Action → Option World
  | .worker check key force env => s.running.map fun self =>
      settle ((run_firmware_update_worker P self check key force : Prog Empty World Bool)
        (s.enter env) env.plan)
  | .preboot check env => s.running.map fun self =>
      settle ((prebootUpdate P self check : Prog Empty World Bool) (s.enter env) env.plan)
  | .confirm env => s.running.map fun self =>
      settle ((do mark_firmware_applied P self; return false : Prog Unit World Bool) (s.enter env) env.plan)
  | .start env => some (launch (rollbackScript { s.enter env with running := none } env.plan))
  | .die => some { s with running := none }

/-- A display whose app was confirmed, with no update pending. -/
def init (first : Bytes) (prev new : Option Contents) (attempts : Option String) (guard : Guard)
    (running : Bool) (outside : Outside) : World :=
  ⟨.whole first, prev, new, none, attempts, guard, if running then some first else none, outside, [], [first]⟩

end Firmware
