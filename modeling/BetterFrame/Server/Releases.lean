import BetterFrame.Lib.Table

/-!
# Published releases and rollouts

The rows of `firmware_releases`, `os_update_releases` and their rollouts (`db/migrations-pg.ts`), and
the repository's queries over them. The two kinds of release differ in the column that names what a
release runs on, `arch` or `compatibility`; that column with `version` is the unique key of either
table, and `ReleaseKind` is what code that treats both alike reads.
-/

inductive Channel where
  | stable
  | beta
  | dev
deriving DecidableEq

def Channel.toString : Channel → String
  | .stable => "stable"
  | .beta => "beta"
  | .dev => "dev"

/-- The columns the two kinds of release share. Times count microseconds. -/
structure Release where
  id : String
  version : String
  channel : Channel
  artifact_path : String
  size_bytes : Nat
  sha256 : String
  release_notes : Option String
  uploaded_at : Nat
  uploaded_by : Option String
  yanked_at : Option Nat
deriving DecidableEq

structure FirmwareRelease extends Release where
  arch : String
  signature : String
deriving DecidableEq

structure OsUpdateRelease extends Release where
  compatibility : String
deriving DecidableEq

/-- What the releases of a table have in common. -/
class ReleaseKind (R : Type) where
  release : R → Release
  target : R → String

instance : ReleaseKind FirmwareRelease := ⟨FirmwareRelease.toRelease, FirmwareRelease.arch⟩

instance : ReleaseKind OsUpdateRelease := ⟨OsUpdateRelease.toRelease, OsUpdateRelease.compatibility⟩

inductive RolloutState where
  | queued
  | active
  | paused
  | complete
deriving DecidableEq

/-- `queued`, `active` or `paused`. -/
def RolloutState.holds : RolloutState → Bool
  | .queued | .active | .paused => true
  | .complete => false

structure Rollout where
  id : String
  release_id : String
  target_kiosk_ids : List String
  state : RolloutState
  percentage : Nat
  created_at : Nat
deriving DecidableEq

open ReleaseKind

/-- The releases, unique by id and by version and target. -/
abbrev Releases (R : Type) [ReleaseKind R] :=
  Table (fun r : R => (release r).id) (fun r : R => ((release r).version, target r))

section Queries

variable {R : Type} [ReleaseKind R] {rows : List R} {r : R}

def isYanked (r : R) : Bool := (release r).yanked_at.isSome

/-- The newest releases come first. -/
def uploadedLater (a b : R) : Prop := (release b).uploaded_at ≤ (release a).uploaded_at

instance : DecidableRel (uploadedLater (R := R)) := fun _ _ => Nat.decLe _ _

instance : IsTrans R uploadedLater := ⟨fun _ _ _ h h' => Nat.le_trans h' h⟩

instance : Std.Total (uploadedLater (R := R)) := ⟨fun _ _ => Nat.le_total _ _⟩

/-- `SELECT * FROM … ORDER BY uploaded_at DESC`. -/
def listReleases (rows : List R) : List R := rows.insertionSort uploadedLater

/-- `SELECT * FROM … WHERE yanked_at IS NOT NULL ORDER BY yanked_at ASC`. -/
def listYankedReleases (rows : List R) : List R :=
  (rows.filter isYanked).insertionSort fun a b => (release a).yanked_at.getD 0 ≤ (release b).yanked_at.getD 0

/-- `SELECT * FROM … WHERE version = ? AND arch = ?`, or `compatibility`. -/
def getReleaseByVersion (rows : List R) (version tgt : String) : Option R :=
  rows.find? fun r => (release r).version = version ∧ target r = tgt

/-- `… WHERE channel = ? AND arch = ? AND yanked_at IS NULL ORDER BY uploaded_at DESC LIMIT 1`, or
`compatibility`. -/
def getLatestRelease (rows : List R) (channel : Channel) (tgt : String) : Option R :=
  ((rows.filter fun r => (release r).channel = channel ∧ target r = tgt ∧ !isYanked r).insertionSort
    uploadedLater).head?

@[simp] theorem mem_listReleases : r ∈ listReleases rows ↔ r ∈ rows := List.mem_insertionSort _

@[simp] theorem mem_listYankedReleases : r ∈ listYankedReleases rows ↔ r ∈ rows ∧ isYanked r := by
  simp [listYankedReleases]

theorem getReleaseByVersion_some {version tgt : String} (h : getReleaseByVersion rows version tgt = some r) :
    r ∈ rows ∧ (release r).version = version ∧ target r = tgt :=
  ⟨List.mem_of_find?_eq_some h, by simpa using List.find?_some h⟩

theorem getReleaseByVersion_none {version tgt : String} (h : getReleaseByVersion rows version tgt = none) :
    ∀ r ∈ rows, (release r).version = version → target r ≠ tgt := by
  simpa [getReleaseByVersion] using h

theorem getLatestRelease_some {channel : Channel} {tgt : String}
    (h : getLatestRelease rows channel tgt = some r) :
    r ∈ rows ∧ (release r).channel = channel ∧ target r = tgt ∧ isYanked r = false := by
  have := List.mem_of_mem_head? h
  simpa using this

end Queries

def getFirmwareReleaseByVersionArch (rows : List FirmwareRelease) (version arch : String) :
    Option FirmwareRelease :=
  getReleaseByVersion rows version arch

def getLatestFirmwareRelease (rows : List FirmwareRelease) (channel : Channel) (arch : String) :
    Option FirmwareRelease :=
  getLatestRelease rows channel arch

def getOsUpdateReleaseByVersionCompatibility (rows : List OsUpdateRelease) (version compatibility : String) :
    Option OsUpdateRelease :=
  getReleaseByVersion rows version compatibility

def getLatestOsUpdateRelease (rows : List OsUpdateRelease) (channel : Channel) (compatibility : String) :
    Option OsUpdateRelease :=
  getLatestRelease rows channel compatibility
