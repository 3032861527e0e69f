import BetterFrame.Server.Releases
import BetterFrame.Server.Version

/-!
# Which release a check offers

The selection paths: `selectPublicUpdate` behind the two public checks, `selectWindowsRelease`, and
the kiosk firmware, kiosk OS and ioBOX checks of `service-api-http/index.ts`. Each looks at a version
pin first and at the channel's latest release last; in between some look at the active rollouts.
A path honours the pin when it offers the pinned version, not yanked, or nothing. The first two paths
stop at a pin; the other three treat a missing or yanked pin as no pin (`pin_honoured_iff`).
-/

namespace UpdateSelection

open Text Version ReleaseKind

/-- A row of `iobox_firmware_releases`. -/
structure IoBoxFirmwareRelease extends Release where
  firmware_arch : String
  model_id : Option String
  signature : String
deriving DecidableEq

instance : ReleaseKind IoBoxFirmwareRelease :=
  ⟨IoBoxFirmwareRelease.toRelease, IoBoxFirmwareRelease.firmware_arch⟩

/-- What the checks read of a kiosk's row. -/
structure Kiosk where
  id : String
  firmware_channel : Option Channel
  firmware_target_version : Option String
  kiosk_app_version : Option String
  os_update_channel : Option Channel
  os_update_target_version : Option String
  os_version : Option String

/-- What the ioBOX check reads of an ioBOX's row. -/
structure IoBox where
  model_id : Option String
  firmware_version : Option String
  firmware_channel : Option Channel
  firmware_target_version : Option String

/-- The parameters of a request's URL. -/
abbrev Query := List (String × String)

def Query.get (q : Query) (k : String) : Option String := (q.find? fun p => p.1 = k).map Prod.snd

/-- The tables the checks read, and the rollout bucket of a text: the first four bytes of its sha256
digest, modulo 100. -/
structure Catalogue where
  firmware_releases : List FirmwareRelease
  firmware_rollouts : List Rollout
  os_update_releases : List OsUpdateRelease
  os_update_rollouts : List Rollout
  iobox_firmware_releases : List IoBoxFirmwareRelease
  bucket : String → Nat

/-! ### Repository queries -/

section Repository

variable {R : Type} [ReleaseKind R]

def getRelease (rows : List R) (id : String) : Option R := rows.find? fun r => (release r).id = id

/-- `listActiveRolloutsForKiosk` and `listActiveOsUpdateRolloutsForKiosk`. -/
def listActiveRolloutsForKiosk (rollouts : List Rollout) (kioskId : String) : List Rollout :=
  ((rollouts.filter fun r => r.state = .active).insertionSort fun a b => b.created_at ≤ a.created_at).filter
    fun r => r.target_kiosk_ids = [] ∨ kioskId ∈ r.target_kiosk_ids

end Repository

def getIoBoxFirmwareReleaseByVersionArchModel (rows : List IoBoxFirmwareRelease) (version arch : String)
    (model : Option String) : Option IoBoxFirmwareRelease :=
  rows.find? fun r => r.version = version ∧ r.firmware_arch = arch ∧ r.model_id = model

/-- A release of the box's own model stands before one for any model, and then the newest first. -/
def ioBoxOrder (model : Option String) (a b : IoBoxFirmwareRelease) : Prop :=
  let rank (r : IoBoxFirmwareRelease) : Nat := if model.isSome ∧ r.model_id = model then 0 else 1
  rank a < rank b ∨ rank a = rank b ∧ b.uploaded_at ≤ a.uploaded_at

instance {model : Option String} : DecidableRel (ioBoxOrder model) :=
  fun _ _ => inferInstanceAs (Decidable (_ ∨ _))

def getLatestIoBoxFirmwareRelease (rows : List IoBoxFirmwareRelease) (channel : Channel) (arch : String)
    (model : Option String) : Option IoBoxFirmwareRelease :=
  ((rows.filter fun r => r.channel = channel ∧ r.firmware_arch = arch ∧ !isYanked r ∧
    (r.model_id = none ∨ r.model_id = model)).insertionSort (ioBoxOrder model)).head?

/-! ### The paths -/

def FIRMWARE_TARGET_WINDOWS := "windows-x64"
def FIRMWARE_TARGET_RPI5 := "betterframe-rpi5-aarch64"
def FIRMWARE_TARGET_PC_X86_64 := "betterframe-pc-x86_64"

/-- The target under its own name, for the names older clients send. -/
def normalizeFirmwareTarget (raw : Option String) : String :=
  let value := trim (raw.getD "")
  if value = "aarch64-unknown-linux-gnu" ∨ value = FIRMWARE_TARGET_RPI5 then FIRMWARE_TARGET_RPI5
  else if value = "x86_64-unknown-linux-gnu" ∨ value = FIRMWARE_TARGET_PC_X86_64 then
    FIRMWARE_TARGET_PC_X86_64
  else value

/-- The kiosk's bucket is below the percentage. -/
def isKioskInRolloutBucket (bucket : String → Nat) (kioskId rolloutId : String) (percentage : Nat) : Bool :=
  if 100 ≤ percentage then true
  else if percentage = 0 then false
  else bucket (rolloutId ++ ":" ++ kioskId) < percentage

def channelOf : String → Option Channel
  | "stable" => some .stable
  | "beta" => some .beta
  | "dev" => some .dev
  | _ => none

section Generic

variable {R : Type} [ReleaseKind R]

/-- The release of the version asked for, or the channel's latest, unless it is yanked. -/
def selectPublicUpdate (query : Query) (latest : Channel → Option R) (pinned : String → Option R) :
    Option R :=
  match channelOf ((query.get "channel").getD "stable") with
  | none => none
  | some channel =>
    let release :=
      match truthy (query.get "version") with
      | some version => pinned version
      | none => latest channel
    release.filter fun r => !isYanked r

/-- The rollout loop of the two kiosk checks: the release of the first active rollout that has the
kiosk in its bucket and a release that is not yanked and `fits`. -/
def rolloutRelease (bucket : String → Nat) (rows : List R) (kioskId : String) (fits : R → Bool) :
    List Rollout → Option R
  | [] => none
  | rollout :: rollouts =>
    if isKioskInRolloutBucket bucket kioskId rollout.id rollout.percentage then
      match (getRelease rows rollout.release_id).filter fun r => !isYanked r && fits r with
      | some r => some r
      | none => rolloutRelease bucket rows kioskId fits rollouts
    else rolloutRelease bucket rows kioskId fits rollouts

/-- A release is offered when it is newer than what the device runs. -/
def offerUpgrade (current : String) (r : Option R) : Option R :=
  r.filter fun r => isVersionUpgrade (release r).version current

end Generic

variable (c : Catalogue)

def requestTarget (query : Query) : String :=
  normalizeFirmwareTarget (orElse ((query.get "target").map trim) ((query.get "arch").map trim))

/-- The release the public firmware route finds. -/
def publicFirmwareRelease (query : Query) (target : String) : Option FirmwareRelease :=
  selectPublicUpdate query (fun channel => getLatestFirmwareRelease c.firmware_releases channel target)
    fun version => getFirmwareReleaseByVersionArch c.firmware_releases version target

/-- `GET /api/firmware/public/check`. -/
def publicFirmwareCheck (query : Query) : Except (Nat × String) (Option FirmwareRelease) :=
  let target := requestTarget query
  if target = "" then .error (400, "target required")
  else .ok (offerUpgrade (((query.get "current").map trim).getD "") (publicFirmwareRelease c query target))

def requestCompatibility (query : Query) : String := ((query.get "compatibility").map trim).getD ""

/-- The release the public system route finds. -/
def publicOsRelease (query : Query) (compatibility : String) : Option OsUpdateRelease :=
  selectPublicUpdate query (fun channel =>
    getLatestOsUpdateRelease c.os_update_releases channel compatibility)
    fun version => getOsUpdateReleaseByVersionCompatibility c.os_update_releases version compatibility

/-- `GET /api/os/public/check`. -/
def publicOsCheck (query : Query) : Except (Nat × String) (Option OsUpdateRelease) :=
  let compatibility := requestCompatibility query
  if compatibility = "" then .error (400, "compatibility required")
  else .ok (offerUpgrade (((query.get "current").map trim).getD "") (publicOsRelease c query compatibility))

/-- The rollout loop of `selectWindowsRelease`. -/
def windowsRolloutRelease (kioskId : String) : List Rollout → Option FirmwareRelease
  | [] => none
  | rollout :: rollouts =>
    if rollout.percentage ≤ c.bucket (rollout.id ++ ":" ++ kioskId) then
      windowsRolloutRelease kioskId rollouts
    else
      match (getRelease c.firmware_releases rollout.release_id).filter fun r =>
          !isYanked r && r.arch = FIRMWARE_TARGET_WINDOWS with
      | some r => some r
      | none => windowsRolloutRelease kioskId rollouts

def selectWindowsRelease (kiosk : Kiosk) : Option FirmwareRelease :=
  match truthy kiosk.firmware_target_version with
  | some version =>
    (getFirmwareReleaseByVersionArch c.firmware_releases version FIRMWARE_TARGET_WINDOWS).filter fun r =>
      !isYanked r
  | none =>
    match windowsRolloutRelease c kiosk.id (listActiveRolloutsForKiosk c.firmware_rollouts kiosk.id) with
    | some r => some r
    | none =>
      getLatestFirmwareRelease c.firmware_releases (kiosk.firmware_channel.getD .stable)
        FIRMWARE_TARGET_WINDOWS

def kioskFirmwareCurrent (kiosk : Kiosk) (query : Query) : String :=
  (((query.get "current").map trim).orElse fun _ => kiosk.kiosk_app_version).getD ""

/-- The release of the pin, unless yanked or missing. -/
def kioskFirmwarePinned (kiosk : Kiosk) (target : String) : Option FirmwareRelease :=
  match truthy kiosk.firmware_target_version with
  | some version =>
    (getFirmwareReleaseByVersionArch c.firmware_releases version target).filter fun r => !isYanked r
  | none => none

/-- What the kiosk firmware check takes when it has no pinned release. -/
def kioskFirmwareUnpinned (kiosk : Kiosk) (target : String) : Option FirmwareRelease :=
  match rolloutRelease c.bucket c.firmware_releases kiosk.id
    (fun r => normalizeFirmwareTarget (some r.arch) = target)
      (listActiveRolloutsForKiosk c.firmware_rollouts kiosk.id) with
  | some r => some r
  | none => getLatestFirmwareRelease c.firmware_releases (kiosk.firmware_channel.getD .stable) target

/-- `GET /api/kiosk/firmware/check`. -/
def kioskFirmwareCheck (kiosk : Kiosk) (query : Query) : Except (Nat × String) (Option FirmwareRelease) :=
  let target := requestTarget query
  let current := kioskFirmwareCurrent kiosk query
  if target = "" then .error (400, "target query param required")
  else if target = FIRMWARE_TARGET_WINDOWS then .ok (offerUpgrade current (selectWindowsRelease c kiosk))
  else .ok (offerUpgrade current
    ((kioskFirmwarePinned c kiosk target).orElse fun _ => kioskFirmwareUnpinned c kiosk target))

def kioskOsCurrent (kiosk : Kiosk) (query : Query) : String :=
  (((query.get "current").map trim).orElse fun _ => kiosk.os_version).getD ""

/-- The release of the pin, unless yanked or missing. -/
def kioskOsPinned (kiosk : Kiosk) (compatibility : String) : Option OsUpdateRelease :=
  match truthy kiosk.os_update_target_version with
  | some version =>
    (getOsUpdateReleaseByVersionCompatibility c.os_update_releases version compatibility).filter fun r =>
      !isYanked r
  | none => none

/-- What the kiosk OS check takes when it has no pinned release. -/
def kioskOsUnpinned (kiosk : Kiosk) (compatibility : String) : Option OsUpdateRelease :=
  match rolloutRelease c.bucket c.os_update_releases kiosk.id (fun r => r.compatibility = compatibility)
      (listActiveRolloutsForKiosk c.os_update_rollouts kiosk.id) with
  | some r => some r
  | none => getLatestOsUpdateRelease c.os_update_releases (kiosk.os_update_channel.getD .stable) compatibility

/-- `GET /api/kiosk/os/check`. -/
def kioskOsCheck (kiosk : Kiosk) (query : Query) : Except (Nat × String) (Option OsUpdateRelease) :=
  let compatibility := requestCompatibility query
  let current := kioskOsCurrent kiosk query
  if compatibility = "" then .error (400, "compatibility query param required")
  else .ok (offerUpgrade current
    ((kioskOsPinned c kiosk compatibility).orElse fun _ => kioskOsUnpinned c kiosk compatibility))

def ioBoxCurrent (box : IoBox) (query : Query) : String :=
  ((query.get "current").orElse fun _ => box.firmware_version).getD ""

def ioBoxArch (query : Query) : String := (query.get "arch").getD "esp32s3"

/-- The release of the pinned version for the box's model, else the one for any model, if it is not
yanked. -/
def ioBoxPinned (box : IoBox) (arch : String) : Option IoBoxFirmwareRelease :=
  match truthy box.firmware_target_version with
  | some version =>
    ((getIoBoxFirmwareReleaseByVersionArchModel c.iobox_firmware_releases version arch box.model_id).orElse
          fun _ =>
      getIoBoxFirmwareReleaseByVersionArchModel c.iobox_firmware_releases version arch none).filter
        fun r => !isYanked r
  | none => none

/-- The latest release for the box's channel and model. -/
def ioBoxUnpinned (box : IoBox) (arch : String) : Option IoBoxFirmwareRelease :=
  getLatestIoBoxFirmwareRelease c.iobox_firmware_releases (box.firmware_channel.getD .stable) arch
    box.model_id

/-- `GET /api/iobox/firmware/check`. -/
def ioBoxFirmwareCheck (box : IoBox) (query : Query) : Option IoBoxFirmwareRelease :=
  offerUpgrade (ioBoxCurrent box query)
    ((ioBoxPinned c box (ioBoxArch query)).orElse fun _ => ioBoxUnpinned c box (ioBoxArch query))

/-! ### Pins -/

/-- What a check reads of its request. -/
structure Request where
  query : Query
  kiosk : Kiosk
  box : IoBox

/-- `publicFirmware` and `publicOs` are what `selectPublicUpdate` gives behind the two public checks. -/
inductive Path where
  | publicFirmware
  | publicFirmwareCheck
  | publicOs
  | publicOsCheck
  | windows
  | kioskFirmware
  | kioskOs
  | ioBox
deriving DecidableEq

/-- The version pin the path reads. -/
def pin (req : Request) : Path → Option String
  | .publicFirmware | .publicFirmwareCheck | .publicOs | .publicOsCheck =>
    truthy (req.query.get "version")
  | .windows | .kioskFirmware => truthy req.kiosk.firmware_target_version
  | .kioskOs => truthy req.kiosk.os_update_target_version
  | .ioBox => truthy req.box.firmware_target_version

/-- The release the path offers. -/
def offered (req : Request) : Path → Option Release
  | .publicFirmware => (publicFirmwareRelease c req.query (requestTarget req.query)).map release
  | .publicFirmwareCheck => (publicFirmwareCheck c req.query).toOption.join.map release
  | .publicOsCheck => (publicOsCheck c req.query).toOption.join.map release
  | .publicOs => (publicOsRelease c req.query (requestCompatibility req.query)).map release
  | .windows => (selectWindowsRelease c req.kiosk).map release
  | .kioskFirmware => (kioskFirmwareCheck c req.kiosk req.query).toOption.join.map release
  | .kioskOs => (kioskOsCheck c req.kiosk req.query).toOption.join.map release
  | .ioBox => (ioBoxFirmwareCheck c req.box req.query).map release

/-- The pinned version itself, not yanked, or nothing. -/
def Honours (pin : Option String) (offer : Option Release) : Prop :=
  ∀ version, pin = some version → ∀ r, offer = some r → r.version = version ∧ r.yanked_at = none

section Catalogue

variable {R : Type} [ReleaseKind R] (bucket : String → Nat) (rows : List R) (rollouts : List Rollout)

/-- The release of the version for the target is there and not yanked. -/
def Available (version tgt : String) : Prop :=
  ∃ r, rows.First (fun r => (release r).version = version ∧ target r = tgt) r ∧
    (release r).yanked_at = none

/-- An active rollout to the kiosk that has it in its bucket. -/
def Reaches (kioskId : String) (rollout : Rollout) : Prop :=
  rollout.state = .active ∧
    (rollout.target_kiosk_ids = [] ∨ kioskId ∈ rollout.target_kiosk_ids) ∧
    (100 ≤ rollout.percentage ∨ bucket (rollout.id ++ ":" ++ kioskId) < rollout.percentage)

/-- The rollout's release fits and is not yanked. -/
def Brings (fits : R → Bool) (rollout : Rollout) (r : R) : Prop :=
  rows.First (fun r => (release r).id = rollout.release_id) r ∧ (release r).yanked_at = none ∧ fits r

/-- The release of the newest rollout that reaches the kiosk with one. -/
def RolledOut (fits : R → Bool) (kioskId : String) (r : R) : Prop :=
  ∃ rollout, rollouts.Foremost (·.created_at)
      (fun x => Reaches bucket kioskId x ∧ ∃ r, Brings rows fits x r) rollout ∧
    Brings rows fits rollout r

/-- The channel's newest release for the target. -/
def Latest (channel : Channel) (tgt : String) (r : R) : Prop :=
  rows.Foremost (fun r => (release r).uploaded_at)
    (fun r => (release r).channel = channel ∧ target r = tgt ∧ (release r).yanked_at = none) r

/-- What a kiosk is given without a pin. -/
def NextForKiosk (fits : R → Bool) (kioskId : String) (channel : Channel) (tgt : String) (r : R) : Prop :=
  RolledOut bucket rows rollouts fits kioskId r ∨
    (∀ x, ¬ RolledOut bucket rows rollouts fits kioskId x) ∧ Latest rows channel tgt r

end Catalogue

/-- The release of the version for the box's model, or the one for any model where there is none, is
not yanked. -/
def AvailableForBox (rows : List IoBoxFirmwareRelease) (version arch : String) (model : Option String) :
    Prop :=
  let ofModel (model : Option String) (r : IoBoxFirmwareRelease) : Prop :=
    r.version = version ∧ r.firmware_arch = arch ∧ r.model_id = model
  ∃ r, r.yanked_at = none ∧
    (rows.First (ofModel model) r ∨ (∀ x ∈ rows, ¬ ofModel model x) ∧ rows.First (ofModel none) r)

/-- The channel's newest release for the box's model, or the one for any model where there is none. -/
def NextForBox (rows : List IoBoxFirmwareRelease) (channel : Channel) (arch : String) (model : Option String)
    (r : IoBoxFirmwareRelease) : Prop :=
  let ofModel (model : Option String) (r : IoBoxFirmwareRelease) : Prop :=
    r.channel = channel ∧ r.firmware_arch = arch ∧ r.yanked_at = none ∧ r.model_id = model
  rows.Foremost (·.uploaded_at) (ofModel model) r ∨
    (∀ x ∈ rows, ¬ ofModel model x) ∧ rows.Foremost (·.uploaded_at) (ofModel none) r

/-- The pinned release is available, or what comes next is no upgrade or is of the pinned version. -/
def Harmless {R : Type} [ReleaseKind R] (pin : Option String) (current : String)
    (available : String → Prop) (next : R → Prop) : Prop :=
  ∀ version, pin = some version → available version ∨
    ∀ r, next r → isVersionUpgrade (release r).version current → (release r).version = version

/-- What keeps a request to its pin. -/
def StaysPinned (req : Request) : Path → Prop
  | .publicFirmware | .publicFirmwareCheck | .publicOs | .publicOsCheck | .windows => True
  | .kioskFirmware =>
    let target := requestTarget req.query
    target ≠ "" → target ≠ FIRMWARE_TARGET_WINDOWS →
      Harmless (pin req .kioskFirmware) (kioskFirmwareCurrent req.kiosk req.query)
        (fun version => Available c.firmware_releases version target)
        (NextForKiosk c.bucket c.firmware_releases c.firmware_rollouts
          (fun r => normalizeFirmwareTarget (some r.arch) = target) req.kiosk.id
          (req.kiosk.firmware_channel.getD .stable) target)
  | .kioskOs =>
    let compatibility := requestCompatibility req.query
    compatibility ≠ "" →
      Harmless (pin req .kioskOs) (kioskOsCurrent req.kiosk req.query)
        (fun version => Available c.os_update_releases version compatibility)
        (NextForKiosk c.bucket c.os_update_releases c.os_update_rollouts
          (fun r => r.compatibility = compatibility) req.kiosk.id
          (req.kiosk.os_update_channel.getD .stable) compatibility)
  | .ioBox =>
    Harmless (pin req .ioBox) (ioBoxCurrent req.box req.query)
      (fun version =>
        AvailableForBox c.iobox_firmware_releases version (ioBoxArch req.query) req.box.model_id)
      (NextForBox c.iobox_firmware_releases (req.box.firmware_channel.getD .stable)
        (ioBoxArch req.query) req.box.model_id)

section Pins

variable {c} {R : Type} [ReleaseKind R] {rows : List R} {r : R} {p : Option String} {current : String}

theorem isYanked_eq_false : isYanked r = false ↔ (release r).yanked_at = none := by
  simp [isYanked]

theorem filter_not_yanked {o : Option R} (h : o.filter (fun r => !isYanked r) = some r) :
    o = some r ∧ (release r).yanked_at = none := by
  obtain ⟨ho, hy⟩ := Option.filter_eq_some_iff.1 h
  exact ⟨ho, isYanked_eq_false.1 (by simpa using hy)⟩

/-! The loops and queries of the checks, said of the rows. -/

theorem getRelease_iff {id : String} :
    getRelease rows id = some r ↔ rows.First (fun r => (release r).id = id) r :=
  List.find?_eq_some_iff_first

theorem getReleaseByVersion_iff {version tgt : String} : getReleaseByVersion rows version tgt = some r ↔
    rows.First (fun r => (release r).version = version ∧ target r = tgt) r :=
  List.find?_eq_some_iff_first

theorem brings_iff {fits : R → Bool} {rollout : Rollout} :
    ((getRelease rows rollout.release_id).filter fun r => !isYanked r && fits r) = some r ↔
      Brings rows fits rollout r := by
  rw [Option.filter_eq_some_iff, getRelease_iff, Brings, ← isYanked_eq_false]
  simp

theorem isKioskInRolloutBucket_iff {bucket : String → Nat} {kioskId id : String} {percentage : Nat} :
    isKioskInRolloutBucket bucket kioskId id percentage ↔
      100 ≤ percentage ∨ bucket (id ++ ":" ++ kioskId) < percentage := by
  unfold isKioskInRolloutBucket
  split
  · next h => simp [h]
  · next h =>
    split
    · next hzero => simp [hzero]
    · simp [h]

/-- A loop over rollouts stops at the first one that reaches the kiosk with a release. -/
theorem rolloutRelease_eq (bucket : String → Nat) (kioskId : String) (fits : R → Bool)
    (rollouts : List Rollout) : rolloutRelease bucket rows kioskId fits rollouts =
      rollouts.findSome? fun x =>
        if isKioskInRolloutBucket bucket kioskId x.id x.percentage then
          (getRelease rows x.release_id).filter fun r => !isYanked r && fits r
        else none := by
  induction rollouts with
  | nil => rfl
  | cons rollout rollouts ih =>
    rw [rolloutRelease, List.findSome?_cons, ih]
    by_cases hbucket : isKioskInRolloutBucket bucket kioskId rollout.id rollout.percentage
    · simp only [hbucket, if_true]
      cases (getRelease rows rollout.release_id).filter fun r => !isYanked r && fits r <;> rfl
    · simp [hbucket]

theorem rolledOut_iff {bucket : String → Nat} {rollouts : List Rollout} {kioskId : String}
    {fits : R → Bool} :
    rolloutRelease bucket rows kioskId fits (listActiveRolloutsForKiosk rollouts kioskId) = some r ↔
      RolledOut bucket rows rollouts fits kioskId r := by
  have hserves : ∀ (x : Rollout) (r : R),
      (if isKioskInRolloutBucket bucket kioskId x.id x.percentage then
        (getRelease rows x.release_id).filter fun r => !isYanked r && fits r else none) = some r ↔
        (100 ≤ x.percentage ∨ bucket (x.id ++ ":" ++ kioskId) < x.percentage) ∧
          Brings rows fits x r := by
    intro x r
    rw [← isKioskInRolloutBucket_iff, ← brings_iff]
    split <;> simp_all
  rw [rolloutRelease_eq, List.findSome?_eq_some_iff_find?, RolledOut]
  refine exists_congr fun x => ?_
  rw [hserves, listActiveRolloutsForKiosk, List.find?_filter, List.find?_insertionSort_filter]
  have hreaches : (fun x : Rollout => decide (x.state = .active) = true ∧
      decide (decide (x.target_kiosk_ids = [] ∨ kioskId ∈ x.target_kiosk_ids) = true ∧
        (if isKioskInRolloutBucket bucket kioskId x.id x.percentage then
          (getRelease rows x.release_id).filter fun r => !isYanked r && fits r
        else none).isSome = true) = true) =
      fun x => Reaches bucket kioskId x ∧ ∃ r, Brings rows fits x r := by
    funext x
    rw [decide_eq_true_iff, decide_eq_true_iff, decide_eq_true_iff, Option.isSome_iff_exists]
    simp only [hserves, exists_and_left, Reaches, and_assoc]
  rw [hreaches]
  refine ⟨fun h => ⟨h.1, h.2.2⟩, fun h => ⟨h.1, h.1.holds.1.2.2, h.2⟩⟩

theorem Latest.not_yanked {channel : Channel} {tgt : String} (h : Latest rows channel tgt r) :
    (release r).yanked_at = none :=
  h.holds.2.2

theorem NextForKiosk.not_yanked {bucket : String → Nat} {rollouts : List Rollout} {kioskId tgt : String}
    {channel : Channel} {fits : R → Bool}
    (h : NextForKiosk bucket rows rollouts fits kioskId channel tgt r) : (release r).yanked_at = none := by
  rcases h with ⟨rollout, -, hbrings⟩ | ⟨-, hlatest⟩
  · exact hbrings.2.1
  · exact hlatest.not_yanked

theorem latest_iff {channel : Channel} {tgt : String} :
    getLatestRelease rows channel tgt = some r ↔ Latest rows channel tgt r := by
  have hfilter : (fun r : R => decide ((release r).channel = channel ∧ target r = tgt ∧ !isYanked r)) =
      fun r => decide ((release r).channel = channel ∧ target r = tgt ∧ (release r).yanked_at = none) := by
    funext r
    simp [isYanked]
  rw [Latest, ← List.head?_insertionSort_filter, getLatestRelease, hfilter]
  rfl

/-- The release that a version pin gives is there exactly where it is available. -/
theorem available_iff {version tgt : String} :
    Available rows version tgt ↔
      ∃ r, (getReleaseByVersion rows version tgt).filter (fun r => !isYanked r) = some r := by
  refine exists_congr fun r => ?_
  rw [Option.filter_eq_some_iff, getReleaseByVersion_iff, ← isYanked_eq_false]
  simp

theorem nextForKiosk_iff {bucket : String → Nat} {rollouts : List Rollout} {kioskId tgt : String}
    {channel : Channel} {fits : R → Bool} :
    (rolloutRelease bucket rows kioskId fits (listActiveRolloutsForKiosk rollouts kioskId)).or
        (getLatestRelease rows channel tgt) = some r ↔
      NextForKiosk bucket rows rollouts fits kioskId channel tgt r := by
  unfold NextForKiosk
  simp only [← rolledOut_iff, ← latest_iff]
  cases rolloutRelease bucket rows kioskId fits (listActiveRolloutsForKiosk rollouts kioskId) with
  | none => simp
  | some a => simp

theorem honours_map_iff {o : Option R} :
    Honours p (o.map release) ↔
      ∀ version, p = some version → ∀ r, o = some r → (release r).version = version ∧
      (release r).yanked_at = none := by
  refine forall₂_congr fun version _ => ⟨fun h r hr => h _ (by rw [hr]; rfl), fun h r hr => ?_⟩
  obtain ⟨a, ha, rfl⟩ := Option.map_eq_some_iff.1 hr
  exact h a ha

theorem honours_offerUpgrade {o : Option R} (h : Honours p (o.map release)) :
    Honours p ((offerUpgrade current o).map release) := by
  rw [honours_map_iff] at h ⊢
  exact fun version hv r hr => h version hv r (Option.filter_eq_some_iff.1 hr).1

/-- A path that offers an upgrade among the pinned release and, failing that, an unpinned one. -/
theorem honours_offer_iff {pinned unpinned : Option R} {available : String → Prop} {next : R → Prop}
    (hp : ∀ version, p = some version → ∀ r, pinned = some r →
      (release r).version = version ∧ (release r).yanked_at = none)
    (hu : ∀ r, unpinned = some r → (release r).yanked_at = none)
    (havailable : ∀ version, p = some version → (available version ↔ ∃ r, pinned = some r))
    (hnext : ∀ r, unpinned = some r ↔ next r) :
    Honours p ((offerUpgrade current (pinned.orElse fun _ => unpinned)).map release) ↔
      Harmless p current available next := by
  rw [honours_map_iff]
  refine forall₂_congr fun version hv => ?_
  rw [havailable version hv]
  simp only [← hnext]
  rcases hpin : pinned with _ | a
  · constructor
    · exact fun h => .inr fun r hr hup => (h r (Option.filter_eq_some_iff.2 ⟨hr, hup⟩)).1
    · intro h r hr
      obtain ⟨hr, hup⟩ := Option.filter_eq_some_iff.1 hr
      exact ⟨h.resolve_left nofun r hr hup, hu r hr⟩
  · refine iff_of_true (fun r hr => hp version hv r ?_) (.inl ⟨a, rfl⟩)
    exact hpin.trans (Option.filter_eq_some_iff.1 hr).1

/-- A public query's pin is the only release it can get. -/
theorem honours_selectPublicUpdate {query : Query} {latest : Channel → Option R} {pinned : String → Option R}
    (hp : ∀ version r, pinned version = some r → (release r).version = version) :
    Honours (truthy (query.get "version")) ((selectPublicUpdate query latest pinned).map release) := by
  rw [honours_map_iff]
  intro version hv r hr
  unfold selectPublicUpdate at hr
  split at hr
  · cases hr
  · rw [hv] at hr
    obtain ⟨hr, hy⟩ := filter_not_yanked hr
    exact ⟨hp _ _ hr, hy⟩

theorem honours_selectWindowsRelease {kiosk : Kiosk} :
    Honours (truthy kiosk.firmware_target_version) ((selectWindowsRelease c kiosk).map release) := by
  rw [honours_map_iff]
  intro version hv r hr
  unfold selectWindowsRelease at hr
  rw [hv] at hr
  obtain ⟨hr, hy⟩ := filter_not_yanked hr
  exact ⟨(getReleaseByVersion_some hr).2.1, hy⟩

theorem kioskFirmwarePinned_some {kiosk : Kiosk} {target version : String}
    (hv : truthy kiosk.firmware_target_version = some version) {r : FirmwareRelease}
    (hr : kioskFirmwarePinned c kiosk target = some r) : r.version = version ∧ r.yanked_at = none := by
  rw [kioskFirmwarePinned, hv] at hr
  obtain ⟨hr, hy⟩ := filter_not_yanked hr
  exact ⟨(getReleaseByVersion_some hr).2.1, hy⟩

theorem kioskFirmwareUnpinned_iff {kiosk : Kiosk} {target : String} {r : FirmwareRelease} :
    kioskFirmwareUnpinned c kiosk target = some r ↔
      NextForKiosk c.bucket c.firmware_releases c.firmware_rollouts
        (fun r => normalizeFirmwareTarget (some r.arch) = target) kiosk.id
        (kiosk.firmware_channel.getD .stable) target r := by
  rw [← nextForKiosk_iff, kioskFirmwareUnpinned, getLatestFirmwareRelease]
  cases rolloutRelease c.bucket c.firmware_releases kiosk.id
    (fun r => normalizeFirmwareTarget (some r.arch) = target)
    (listActiveRolloutsForKiosk c.firmware_rollouts kiosk.id) <;> rfl

theorem kioskOsPinned_some {kiosk : Kiosk} {compatibility version : String}
    (hv : truthy kiosk.os_update_target_version = some version) {r : OsUpdateRelease}
    (hr : kioskOsPinned c kiosk compatibility = some r) : r.version = version ∧ r.yanked_at = none := by
  rw [kioskOsPinned, hv] at hr
  obtain ⟨hr, hy⟩ := filter_not_yanked hr
  exact ⟨(getReleaseByVersion_some hr).2.1, hy⟩

theorem kioskOsUnpinned_iff {kiosk : Kiosk} {compatibility : String} {r : OsUpdateRelease} :
    kioskOsUnpinned c kiosk compatibility = some r ↔
      NextForKiosk c.bucket c.os_update_releases c.os_update_rollouts
        (fun r => r.compatibility = compatibility) kiosk.id
        (kiosk.os_update_channel.getD .stable) compatibility r := by
  rw [← nextForKiosk_iff, kioskOsUnpinned, getLatestOsUpdateRelease]
  cases rolloutRelease c.bucket c.os_update_releases kiosk.id (fun r => r.compatibility = compatibility)
    (listActiveRolloutsForKiosk c.os_update_rollouts kiosk.id) <;> rfl

theorem ioBoxPinned_some {box : IoBox} {arch version : String}
    (hv : truthy box.firmware_target_version = some version) {r : IoBoxFirmwareRelease}
    (hr : ioBoxPinned c box arch = some r) : r.version = version ∧ r.yanked_at = none := by
  rw [ioBoxPinned, hv] at hr
  obtain ⟨hr, hy⟩ := filter_not_yanked hr
  have hfind : ∀ {model}, getIoBoxFirmwareReleaseByVersionArchModel c.iobox_firmware_releases version
    arch model =
      some r → r.version = version := fun h => (by simpa using List.find?_some h : _ ∧ _).1
  refine ⟨?_, hy⟩
  rcases hown : getIoBoxFirmwareReleaseByVersionArchModel c.iobox_firmware_releases version arch
    box.model_id with _ | a
  · rw [hown] at hr
    exact hfind hr
  · rw [hown] at hr
    exact hfind (hown.trans hr)

theorem availableForBox_iff {box : IoBox} {arch version : String}
    (hv : truthy box.firmware_target_version = some version) :
    AvailableForBox c.iobox_firmware_releases version arch box.model_id ↔
      ∃ r, ioBoxPinned c box arch = some r := by
  have hfirst : ∀ model r, c.iobox_firmware_releases.First
      (fun r => r.version = version ∧ r.firmware_arch = arch ∧ r.model_id = model) r ↔
      getIoBoxFirmwareReleaseByVersionArchModel c.iobox_firmware_releases version arch model = some r :=
    fun _ _ => List.find?_eq_some_iff_first.symm
  have hnone : (∀ x ∈ c.iobox_firmware_releases,
      ¬ (x.version = version ∧ x.firmware_arch = arch ∧ x.model_id = box.model_id)) ↔
      getIoBoxFirmwareReleaseByVersionArchModel c.iobox_firmware_releases version arch box.model_id =
        none := by
    simp [getIoBoxFirmwareReleaseByVersionArchModel]
  refine exists_congr fun r => ?_
  simp only [hfirst, hnone]
  rw [ioBoxPinned, hv]
  dsimp only
  rw [Option.filter_eq_some_iff, Bool.not_eq_true', isYanked_eq_false, and_comm]
  refine and_congr_left fun _ => ?_
  cases getIoBoxFirmwareReleaseByVersionArchModel c.iobox_firmware_releases version arch box.model_id with
  | none => simp
  | some a => simp

theorem NextForBox.not_yanked {rows : List IoBoxFirmwareRelease} {channel : Channel} {arch : String}
    {model : Option String} {r : IoBoxFirmwareRelease} (h : NextForBox rows channel arch model r) :
    r.yanked_at = none := by
  rcases h with h | ⟨-, h⟩
  · exact h.holds.2.2.1
  · exact h.holds.2.2.1

theorem nextForBox_iff {rows : List IoBoxFirmwareRelease} {channel : Channel} {arch : String}
    {model : Option String} {r : IoBoxFirmwareRelease} :
    getLatestIoBoxFirmwareRelease rows channel arch model = some r ↔
      NextForBox rows channel arch model r := by
  have hsort : ∀ l : List IoBoxFirmwareRelease, l.insertionSort (ioBoxOrder model) =
      l.insertionSort fun a b =>
        List.ownKey (fun r => model.isSome ∧ r.model_id = model) (·.uploaded_at) b ≤
          List.ownKey (fun r => model.isSome ∧ r.model_id = model) (·.uploaded_at) a := by
    intro l
    congr! 3 with a b
    rw [List.ownKey_le, ioBoxOrder]
    cases model with
    | none => simp
    | some m => by_cases ha : a.model_id = some m <;> by_cases hb : b.model_id = some m <;> simp [ha, hb]
  have hyanked : ∀ x : IoBoxFirmwareRelease, (!isYanked x) = true ↔ x.yanked_at = none := fun x => by
    rw [Bool.not_eq_true']
    exact isYanked_eq_false
  rw [getLatestIoBoxFirmwareRelease, hsort, List.head?_insertionSort_filter, List.foremost_ownKey,
    NextForBox]
  cases model with
  | none =>
    rw [or_iff_right fun h => by simpa using h.holds.2, or_iff_left_of_imp And.right,
      and_iff_right fun _ _ _ => by simp]
    exact List.foremost_congr fun x _ => by rw [hyanked, or_self]
  | some m =>
    refine or_congr (List.foremost_congr fun x _ => ?_) ?_
    · rw [hyanked]
      grind
    · have hown : ∀ x : IoBoxFirmwareRelease, ((x.channel = channel ∧ x.firmware_arch = arch ∧
          (!isYanked x) = true ∧ (x.model_id = none ∨ x.model_id = some m)) →
          ¬ ((some m).isSome = true ∧ x.model_id = some m)) ↔
          ¬ (x.channel = channel ∧ x.firmware_arch = arch ∧ x.yanked_at = none ∧
            x.model_id = some m) := by
        intro x
        rw [hyanked]
        grind
      simp only [hown]
      refine and_congr_right fun hnone => List.foremost_congr fun x hx => ?_
      have hx := hnone x hx
      rw [hyanked]
      grind

end Pins

variable {c}

/-- The public paths and the Windows path always honour a pin; the kiosk checks and the ioBOX check do
so exactly when a missing or yanked pin finds nothing else to offer. -/
theorem pin_honoured_iff (req : Request) (path : Path) :
    Honours (pin req path) (offered c req path) ↔ StaysPinned c req path := by
  cases path with
  | publicFirmware =>
    exact iff_of_true (honours_selectPublicUpdate fun _ _ h => (getReleaseByVersion_some h).2.1) trivial
  | publicFirmwareCheck =>
    refine iff_of_true ?_ trivial
    by_cases htarget : requestTarget req.query = ""
    · rw [offered, publicFirmwareCheck, if_pos htarget]
      exact fun _ _ _ h => nomatch h
    · rw [offered, publicFirmwareCheck, if_neg htarget]
      exact honours_offerUpgrade
        (honours_selectPublicUpdate fun _ _ h => (getReleaseByVersion_some h).2.1)
  | publicOsCheck =>
    refine iff_of_true ?_ trivial
    by_cases hcomp : requestCompatibility req.query = ""
    · rw [offered, publicOsCheck, if_pos hcomp]
      exact fun _ _ _ h => nomatch h
    · rw [offered, publicOsCheck, if_neg hcomp]
      exact honours_offerUpgrade
        (honours_selectPublicUpdate fun _ _ h => (getReleaseByVersion_some h).2.1)
  | publicOs =>
    exact iff_of_true (honours_selectPublicUpdate fun _ _ h => (getReleaseByVersion_some h).2.1) trivial
  | windows => exact iff_of_true honours_selectWindowsRelease trivial
  | kioskFirmware =>
    by_cases htarget : requestTarget req.query = ""
    · refine iff_of_true ?_ fun h => absurd htarget h
      rw [offered, kioskFirmwareCheck, if_pos htarget]
      exact fun _ _ _ h => nomatch h
    by_cases hwin : requestTarget req.query = FIRMWARE_TARGET_WINDOWS
    · refine iff_of_true ?_ fun _ h => absurd hwin h
      rw [offered, kioskFirmwareCheck, if_neg htarget, if_pos hwin]
      exact honours_offerUpgrade honours_selectWindowsRelease
    · rw [offered, kioskFirmwareCheck, if_neg htarget, if_neg hwin]
      refine (honours_offer_iff (fun _ hv _ hr => kioskFirmwarePinned_some hv hr)
        (fun _ hr => (kioskFirmwareUnpinned_iff.1 hr).not_yanked) (fun version hv => ?_)
        fun _ => kioskFirmwareUnpinned_iff).trans ⟨fun h _ _ => h, fun h => h htarget hwin⟩
      have hv : truthy req.kiosk.firmware_target_version = some version := hv
      rw [kioskFirmwarePinned, hv]
      exact available_iff
  | kioskOs =>
    by_cases hcomp : requestCompatibility req.query = ""
    · refine iff_of_true ?_ fun h => absurd hcomp h
      rw [offered, kioskOsCheck, if_pos hcomp]
      exact fun _ _ _ h => nomatch h
    · rw [offered, kioskOsCheck, if_neg hcomp]
      refine (honours_offer_iff (fun _ hv _ hr => kioskOsPinned_some hv hr)
        (fun _ hr => (kioskOsUnpinned_iff.1 hr).not_yanked) (fun version hv => ?_)
        fun _ => kioskOsUnpinned_iff).trans ⟨fun h _ => h, fun h => h hcomp⟩
      have hv : truthy req.kiosk.os_update_target_version = some version := hv
      rw [kioskOsPinned, hv]
      exact available_iff
  | ioBox =>
    exact honours_offer_iff (fun _ hv _ hr => ioBoxPinned_some hv hr)
      (fun _ hr => (nextForBox_iff.1 hr).not_yanked) (fun _ hv => availableForBox_iff hv)
      fun _ => nextForBox_iff

/-- A firmware release of the channel `stable` for the PC target. -/
def pcRelease (id version : String) (uploaded_at : Nat) (yanked_at : Option Nat) : FirmwareRelease where
  id := id
  version := version
  channel := .stable
  artifact_path := id ++ ".bin"
  size_bytes := 4096
  sha256 := id
  release_notes := none
  uploaded_at := uploaded_at
  uploaded_by := none
  yanked_at := yanked_at
  arch := FIRMWARE_TARGET_PC_X86_64
  signature := "sig"

/-- The pinned 2.0.0 is yanked, and 3.0.0 is the channel's latest. -/
def yankedPin : Catalogue where
  firmware_releases := [pcRelease "r2" "2.0.0" 1 (some 5), pcRelease "r3" "3.0.0" 2 none]
  firmware_rollouts := []
  os_update_releases := []
  os_update_rollouts := []
  iobox_firmware_releases := []
  bucket := fun _ => 0

def pinnedRequest : Request where
  query := [("target", "betterframe-pc-x86_64"), ("current", "1.0.0")]
  kiosk := ⟨"k1", some .stable, some "2.0.0", none, some .stable, none, none⟩
  box := ⟨none, none, none, none⟩

/-- The kiosk check offers 3.0.0 to a kiosk that is pinned to the yanked 2.0.0. -/
theorem yanked_pin_falls_through : ¬ ∀ c req path, Honours (pin req path) (offered c req path) := by
  intro h
  have hpinned := h yankedPin pinnedRequest .kioskFirmware "2.0.0" (by decide)
    (pcRelease "r3" "3.0.0" 2 none).toRelease (by decide)
  exact absurd hpinned.1 (by decide)

end UpdateSelection
