import Mathlib
import BetterFrame.Client.UpdateDownload
import BetterFrame.Client.UpdateGuard
import BetterFrame.Client.UpdatePolicy

/-!
# Updates of the operating system on Linux

`platform/linux/os_update.rs` and `os_journal.rs`. A pass downloads a bundle, checks it and hands it to
RAUC; the record of the attempt (`Journal`) outlives the boot, and `report_confirmed` tells the server
what became of the update. The process may die at any operation, and the machine may boot any version
under a fresh boot id. Other threads of the process may report between two operations of a pass
(`others`). The events of `World.log`, latest first, are what the laws speak of.
-/

namespace OsUpdate

open Text Crash UpdatePolicy UpdateDownload UpdateGuard

abbrev Bytes := List UInt8

/-- How far an update is. -/
inductive Stage where
  | downloading
  | installing
  | pendingReboot
  | failed
  | rolledBack
  | confirmed
deriving DecidableEq

/-- The record of an update, which outlives a boot. -/
structure Journal where
  version : String
  release_id : String
  boot_id : String
  stage : Stage
  error : Option String
deriving DecidableEq

/-- Only after a boot change, and only for an attempt that got as far as the installation. -/
def Journal.reconcile (journal : Journal) (boot_id running : String) (healthy : Bool) : Journal :=
  if journal.boot_id = boot_id then journal
  else if journal.stage = .installing ∨ journal.stage = .pendingReboot ∨ journal.stage = .confirmed then
    if journal.version = running then
      { journal with stage := if healthy then .confirmed else .pendingReboot, error := none }
    else
      { journal with
        stage := .rolledBack
        error := some ("Update " ++ journal.version ++ " was interrupted or rolled back; running OS " ++
          running ++ ". Retry from BetterFrame.") }
  else journal

/-- Stages in which no other update may start. -/
def Journal.blocks_apply (journal : Journal) : Bool :=
  journal.stage = .installing ∨ journal.stage = .pendingReboot ∨ journal.stage = .rolledBack

/-- The release that a check offers. -/
structure UpdateInfo where
  release_id : String
  version : String
  sha256 : String
  size_bytes : Nat
  download_url : String
deriving DecidableEq

/-- What becomes of `rauc install`. -/
inductive Rauc where
  | spawnFails (error : String)
  | unknown (error : String)
  | failed (output : String)
  | succeeded

/-- The rest of the machine, as it is at one moment. -/
structure Outside where
  enabled : Bool
  net : Net
  canceled : Bool
  installer_idle : Bool
  /-- What is wrong with `rauc.service`, where it does not run and does not start. -/
  service : Option String
  rauc : Rauc
  /-- The health of this boot is confirmed by now. -/
  confirmed : Bool
  /-- How often other threads call `report_confirmed` here. -/
  reports : Nat
  /-- The server takes the report. -/
  delivered : Bool
  /-- The diagnostics of a reboot that did not come. -/
  detail : String

/-- A boot of the machine. -/
structure Boot where
  id : String
  /-- The version of the slot. -/
  version : String
deriving DecidableEq

/-- What is reported of an update. -/
inductive State where
  | confirmed
  | rolled_back
  | failed
  | pending_reboot
deriving DecidableEq

inductive Event where
  /-- A pass has found this record and reconciled it. -/
  | pass (force : Bool) (found : Option Journal)
  | download (version : String)
  /-- The stage `Installing` is on record. -/
  | installing (version : String) (boot : Boot)
  /-- `rauc install` starts on a file. -/
  | install (info : UpdateInfo) (boot : Boot) (file : Option Bytes)
  /-- A report is sent, on a boot whose health is confirmed or not. -/
  | report (version : String) (state : State) (boot : Boot) (healthy : Bool)

/-- The record, the boot, the downloads, and what is outside. -/
structure World where
  journal : Option Journal
  boot : Boot
  /-- The boots before, latest first. -/
  past : List Boot
  healthy : Bool
  /-- The downloads, by release. -/
  bundles : String → Option Bytes
  guard : Guard
  outside : Outside
  script : List Outside
  log : List Event

/-- What is not in the repository: `semver` and SHA-256. -/
structure Platform where
  semver : Semver
  sha256 : Bytes → String

def World.setBundle (s : World) (release_id : String) (file : Option Bytes) : World :=
  { s with bundles := fun name => if name = release_id then file else s.bundles name }

section Programs

variable {ε : Type}

/-- The machine at the next moment. -/
def look : Prog ε World Outside := .look World.outside World.script fun outside script s =>
  { s with outside, script }

/-- Writes an event of the history. -/
def event (f : World → Event) : Prog ε World Unit := .note fun s => { s with log := f s :: s.log }

/-- An operation of the attempt guard, on its part of the world. -/
def guarded {α : Type} (x : Prog ε Guard α) : Prog ε World α :=
  .zoom World.guard (fun guard s => { s with guard }) x

def current_os_version : Prog ε World String := .get fun s => s.boot.version

/-- Empty if it cannot be read. -/
def boot_id : Prog ε World String := .read (fun s => s.boot.id) ""

/-- Once a boot was seen confirmed it stays so. -/
def boot_is_confirmed : Prog ε World Bool := do
  let o ← look
  .note fun s => { s with healthy := s.healthy || o.confirmed }
  .get World.healthy

def readJournal : Prog String World (Option Journal) :=
  .op ⟨fun s => (.ok s.journal, s), fun s => (.error "Read OS update record: io error", s), id⟩

/-- Renames the new record over the old one and syncs the directory. -/
def writeJournal (journal : Journal) (events : Boot → List Event) : Prog String World Unit := do
  .write (fun s => { s with journal := some journal, log := events s.boot ++ s.log }) "io error"
  .write id "io error"

/-- The journal moved on to the stage, when there is one. -/
def save_stage (stage : Stage) (error : Option String) : Prog String World Unit := do
  match ← readJournal with
  | none => pure ()
  | some journal =>
    writeJournal { journal with stage, error } fun boot =>
      if stage = .installing then [.installing journal.version boot] else []

/-! ### Reports -/

/-- One report sent: a delivered confirmation clears the failures of the version. -/
def sendReport (version : String) (state : State) : Prog ε World Bool := do
  event fun s => .report version state s.boot s.healthy
  let o ← look
  if o.delivered ∧ state = .confirmed then do
    guarded (record_success "os" version)
    return true
  else return o.delivered

/-- Only with the key of an enrolled display. -/
def report_applied (key : Option String) (version : String) (state : State) : Prog ε World Unit :=
  match key with
  | none => pure ()
  | some _ => event fun s => .report version state s.boot s.healthy

/-- What the record says became of the update. -/
def reportJournal (journal : Journal) (id : String) : Prog String World Bool :=
  match journal.stage with
  | .downloading | .installing => return false
  | .rolledBack => do
    writeJournal journal fun _ => []
    sendReport journal.version .rolled_back
  | .failed => do
    writeJournal journal fun _ => []
    sendReport journal.version .failed
  | .pendingReboot => if journal.boot_id = id then return false else confirm
  | .confirmed => confirm
where
  confirm : Prog String World Bool := do
    if ← boot_is_confirmed then do
      writeJournal { journal with stage := .confirmed, error := none } fun _ => []
      sendReport journal.version .confirmed
    else return false

/-- Whether the report was taken. An error ends it with `false`. -/
def report_confirmed : Prog ε World Bool :=
  (do
    let running ← current_os_version
    let id ← boot_id
    if running = "" ∨ id = "" then return false
    else do
      match ← readJournal with
      | none => do
        if ← boot_is_confirmed then sendReport running .confirmed else return false
      | some journal => do
        let healthy ← boot_is_confirmed
        reportJournal (journal.reconcile id running healthy) id : Prog String World Bool).orElse fun _ =>
          return false

/-- The confirmation is reported at most this many times. -/
def reportTimes : Nat → Prog ε World Unit
  | 0 => pure ()
  | n + 1 => do
    let _ ← report_confirmed
    reportTimes n

/-- Other threads of the process at work. -/
def others : Prog ε World Unit := do
  let o ← look
  reportTimes o.reports

end Programs

/-! ### A pass -/

section Pass

variable (P : Platform) (key : Option String) (info : UpdateInfo)

/-- Refuses a version that is no upgrade of the running one. -/
def ensure_upgrade : Prog String World Unit := do
  let running ← current_os_version
  if is_version_upgrade P.semver info.version running then pure ()
  else .throw "refusing OS downgrade or reinstall"

def removeBundle : Prog String World Unit := .ignore (.write (fun s => s.setBundle info.release_id none) "")

/-- The length of the file, which is 0 if there is none. -/
def bundleSize : Prog String World Nat := .get fun s => ((s.bundles info.release_id).getD []).length

/-- Appends the body to the file: whether the body came to its end, and the bytes there are then. -/
def stream (downloaded : Nat) : List Chunk → Prog String World (Bool × Nat)
  | [] => return (true, downloaded)
  | chunk :: chunks =>
    if chunk.canceled then do
      removeBundle info
      .throw "os update canceled after channel change"
    else
      match chunk.data with
      | none => return (false, downloaded)
      | some [] => return (true, downloaded)
      | some data => do
        .write (fun s => s.setBundle info.release_id (some ((s.bundles info.release_id).getD [] ++ data)))
          "write chunk: io error"
        stream (downloaded + data.length) chunks

/-- Opens the file to append to it, or empties it. -/
def openBundle (resumed : Bool) : Prog String World Unit :=
  .write (fun s => s.setBundle info.release_id
    (some (if resumed then (s.bundles info.release_id).getD [] else [])))
    "open bundle file: io error"

/-- Whether the download is complete; otherwise there is another attempt. -/
def downloadAttempt (last : Bool) : Prog String World Bool := do
  let existing ← bundleSize info
  if info.size_bytes ≤ existing then return true
  else do
    let o ← look
    event fun _ => .download info.version
    match get o.net key info.download_url existing with
    | .error error =>
      if is_deferred error then .throw error
      else if last then .throw ("download failed after 5 attempts: " ++ error)
      else return false
    | .ok response =>
      if response.status ≠ 200 ∧ response.status ≠ 206 then
        .throw ("download HTTP " ++ toString response.status)
      else do
        let resumed := decide (0 < existing ∧ response.status = 206)
        openBundle info resumed
        let (complete, downloaded) ← stream info (if resumed then existing else 0) response.body
        if complete ∧ info.size_bytes ≤ downloaded then return true
        else if last then .throw "download incomplete after 5 attempts"
        else return false

/-- The download, resumed up to this many times. -/
def downloadBundle : Nat → Prog String World Unit
  | 0 => pure ()
  | n + 1 => do
    others
    if ← downloadAttempt key info (n = 0) then pure () else downloadBundle n

/-- The bundle's size and digest, or it is removed. -/
def verifyBundle : Prog String World Unit := do
  let size ← bundleSize info
  if size ≠ info.size_bytes then do
    removeBundle info
    .throw "size mismatch"
  else do
    let file ← .op
      { ok := fun s =>
          match s.bundles info.release_id with
          | none => (.error "open for hash: io error", s)
          | some file => (.ok file, s)
        fail := fun s => (.error "read for hash: io error", s.setBundle info.release_id none)
        torn := id }
    if P.sha256 file ≠ info.sha256 then do
      removeBundle info
      .throw "sha256 mismatch"
    else pure ()

/-- The checks between the verification and the installation. -/
def beforeInstall : Prog String World Unit := do
  let o ← look
  if o.canceled then do
    removeBundle info
    .throw "os update canceled after channel change"
  else do
    let o ← look
    if !o.enabled then .throw "OS updates are disabled or this is not a full BetterFrame OS installation"
    else do
      let o ← look
      match o.service with
      | some error => do
        report_applied key info.version .failed
        removeBundle info
        .throw ("rauc.service failed to start: " ++ error)
      | none => do
        let o ← look
        if !o.installer_idle then .throw "OS installer is busy or unavailable; installation deferred"
        else pure ()

/-- `rauc install` is spawned. -/
def spawn : Prog String World Unit :=
  .note fun s => { s with
    log := .install info s.boot (s.bundles info.release_id) :: s.log
    guard := { s.guard with history := .replaced "os" info.version :: s.guard.history } }

/-- Hands the bundle to RAUC. There is no return but the reboot. -/
def install : Prog String World Unit := do
  let o ← look
  match o.rauc with
  | .spawnFails error => do
    let message := "rauc spawn: " ++ error
    (save_stage .failed (some message)).orElse fun e =>
      .throw (message ++ "; could not persist retryable state: " ++ e)
    .throw message
  | .unknown error => do
    spawn info
    others
    .throw ("RAUC outcome unknown; bundle retained: " ++ error)
  | .failed output => do
    spawn info
    others
    report_applied key info.version .failed
    .throw ("rauc install failed (" ++ output)
  | .succeeded => do
    spawn info
    others
    removeBundle info
    report_applied key info.version .pending_reboot
    save_stage .pendingReboot none
    others
    let o ← look
    report_applied key info.version .failed
    .throw ("OS installed but reboot was not confirmed: " ++ o.detail ++ ". Retry from BetterFrame.")

/-- One installation, from the download to the slot switch. -/
def apply_inner : Prog String World Unit := do
  ensure_upgrade P info
  .write id "mkdir staging: io error"
  downloadBundle key info 5
  verifyBundle P info
  others
  beforeInstall key info
  save_stage .installing none
  install key info

/-- A record that blocks ends the pass; a forced pass only waits for the installer. -/
def checkBlocked (journal : Journal) (force : Bool) : Prog String World Unit :=
  if !journal.blocks_apply then pure ()
  else if force then do
    let o ← look
    if !o.installer_idle then
      .throw "OS installer is still busy or unavailable; retry after installation finishes"
    else pure ()
  else
    .throw (journal.error.getD
      ("OS update " ++ journal.version ++
        " is awaiting reboot/confirmation; retry from BetterFrame if needed"))

/-- What a journal of an earlier process says, before an apply. -/
def reconcileJournal (id : String) (force : Bool) : Prog String World Unit := do
  match ← readJournal with
  | none => event fun _ => .pass force none
  | some journal => do
    let running ← current_os_version
    let healthy ← boot_is_confirmed
    let journal := journal.reconcile id running healthy
    writeJournal journal fun _ => [.pass force (some journal)]
    checkBlocked journal force

/-- The record of the new attempt, which is counted before any work. -/
def reserve (id : String) (force : Bool) : Prog String World Unit := do
  match ← guarded (blocked "os" info.version force) with
  | some _ => .throw "OS update paused. Pair this display and retry from BetterFrame."
  | none => do
    writeJournal ⟨info.version, info.release_id, id, .downloading, none⟩ fun _ => []
    let _ ← guarded (record_attempt "os" info.version)

/-- The journal's stage after a failed apply. -/
def noteFailure (error : String) : Prog String World Unit := do
  match ← readJournal with
  | none => pure ()
  | some journal =>
    let stage := if journal.stage = .installing ∨ journal.stage = .pendingReboot then journal.stage
      else .failed
    writeJournal { journal with stage, error := some (String.ofList (error.toList.take 4000)) } fun _ => []

/-- An attempt that the server deferred is refunded. -/
def afterError (error : String) : Prog String World Unit :=
  if is_deferred error then do
    guarded (refund_attempt "os" info.version)
    .throw error
  else do
    others
    noteFailure error
    report_applied key info.version .failed
    .throw error

/-- An apply between the reconciled journal, the attempt guard and the failure record. -/
def apply_tracked (force : Bool) : Prog String World Unit := do
  let o ← look
  if !o.enabled then .throw "OS updates require a full BetterFrame OS installation"
  else do
    ensure_upgrade P info
    let id ← boot_id
    if id = "" then .throw "Cannot identify this boot; OS update deferred"
    else do
      reconcileJournal id force
      reserve info id force
      (apply_inner P key info).orElse (afterError key info)

end Pass

def apply (P : Platform) (key : String) (info : UpdateInfo) (force : Bool) : Prog String World Unit :=
  apply_tracked P (some key) info force

def apply_public (P : Platform) (info : UpdateInfo) : Prog String World Unit :=
  apply_tracked P none info false

/-! ### Runs -/

abbrev Env := UpdateGuard.Env Outside

/-- What runs next, and in which environment. -/
inductive Action where
  /-- A pass of the enrolled display, or of the recovery thread with an empty key. -/
  | apply (key : String) (info : UpdateInfo) (force : Bool) (env : Env)
  | applyPublic (info : UpdateInfo) (env : Env)
  | report (env : Env)
  /-- The machine boots, with an id that no boot had before. -/
  | boot (id version : String)

/-- A new call starts with the outside it will meet. -/
def World.enter (s : World) (env : Env) : World :=
  { s with script := env.script, guard := s.guard.enter env }

def step (P : Platform) (s : World) : Action → Option World
  | .apply key info force env => some (apply P key info force (s.enter env) env.plan).world
  | .applyPublic info env => some (apply_public P info (s.enter env) env.plan).world
  | .report env => some ((report_confirmed : Prog Empty World Bool) (s.enter env) env.plan).world
  | .boot id version =>
    if id = "" ∨ id ∈ (s.boot :: s.past).map Boot.id then none
    else some { s with boot := ⟨id, version⟩, past := s.boot :: s.past, healthy := false }

/-- A machine that has not been updated yet. -/
def init (boot : Boot) (bundles : String → Option Bytes) (guard : Guard) (outside : Outside) : World :=
  ⟨none, boot, [], false, bundles, guard, outside, [], []⟩

end OsUpdate
