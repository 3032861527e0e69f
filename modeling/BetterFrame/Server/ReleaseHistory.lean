import BetterFrame.Lib.Run
import BetterFrame.Server.ArtifactCleanup

/-!
# The life of a firmware version

`createFirmwareRelease`, `yankFirmwareRelease` (`db/repository.ts`) and the cleanup pass, in any
order. A version of an architecture that was published is to keep its content and its channel, and one
that was yanked is to stay yanked; what enforces this is the row, which the insert collides with and
which a later import is compared with. The cleanup deletes rows, so the law needs that no import comes
for a version whose row is gone (`Tombstoned`).
-/

namespace ReleaseHistory

open ArtifactCleanup

/-- The argument of `createFirmwareRelease`. -/
structure FirmwareInput where
  id : String
  version : String
  channel : Channel
  arch : String
  artifact_path : String
  size_bytes : Nat
  sha256 : String
  signature : String
  release_notes : Option String
  uploaded_by : Option String

def FirmwareInput.row (i : FirmwareInput) (now : Nat) : FirmwareRelease where
  id := i.id
  version := i.version
  channel := i.channel
  arch := i.arch
  artifact_path := i.artifact_path
  size_bytes := i.size_bytes
  sha256 := i.sha256
  signature := i.signature
  release_notes := i.release_notes
  uploaded_at := now
  uploaded_by := i.uploaded_by
  yanked_at := none

/-- The table after the call, and the release or the error it ends with. -/
def createFirmwareRelease (t : Releases FirmwareRelease) (i : FirmwareInput) (now : Nat) :
    Releases FirmwareRelease × Except String FirmwareRelease :=
  match t.insertOrNothing (i.row now) with
  | none => (t, .error "duplicate key value violates unique constraint")
  | some t =>
    match getFirmwareReleaseByVersionArch t.rows i.version i.arch with
    | none => (t, .error "firmware release vanished after insert")
    | some release =>
      if release.sha256 ≠ i.sha256 ∨ release.size_bytes ≠ i.size_bytes ∨ release.channel ≠ i.channel ∨
          release.yanked_at.isSome then
        (t, .error "firmware version already exists with different content/channel or is yanked")
      else (t, .ok release)

def yankFirmwareRelease (t : Releases FirmwareRelease) (id : String) (now : Nat) : Releases FirmwareRelease :=
  t.update (fun r => if r.id = id then { r with yanked_at := some now } else r)
    (fun r => by split <;> rfl) (fun r => by split <;> rfl)

section Spec

variable {t t' : Releases FirmwareRelease} {i : FirmwareInput} {now : Nat} {r : FirmwareRelease}
  {msg id : String}

theorem getFirmwareRelease_of_mem (hr : r ∈ t.rows) (hv : r.version = i.version) (ha : r.arch = i.arch) :
    getFirmwareReleaseByVersionArch t.rows i.version i.arch = some r := by
  rcases hget : getFirmwareReleaseByVersionArch t.rows i.version i.arch with _ | r'
  · exact absurd ha (getReleaseByVersion_none hget r hr hv)
  · obtain ⟨hr', hv', ha'⟩ := getReleaseByVersion_some hget
    exact congrArg some (t.eq_of_uq hr' hr (Prod.ext (hv'.trans hv.symm) (ha'.trans ha.symm)))

/-- A call that returns has found the version with this content and channel, not yanked, or has
published it. -/
theorem createFirmwareRelease_ok (h : createFirmwareRelease t i now = (t', .ok r)) :
    r.version = i.version ∧ r.arch = i.arch ∧ r.sha256 = i.sha256 ∧ r.channel = i.channel ∧
    r.yanked_at = none ∧ (r ∈ t.rows ∧ t' = t ∨
        (∀ b ∈ t.rows, b.version = i.version → b.arch ≠ i.arch) ∧ t'.rows = r :: t.rows) := by
  unfold createFirmwareRelease at h
  split at h
  · cases h
  next t₁ hins =>
  split at h
  · cases h
  next r₁ hget =>
  split_ifs at h with hconf
  · cases h
  cases h
  obtain ⟨hmem, hv, ha⟩ := getReleaseByVersion_some hget
  simp only [ne_eq, not_or, not_not] at hconf
  refine ⟨hv, ha, hconf.1, hconf.2.2.1, by simpa using hconf.2.2.2, ?_⟩
  rcases Table.insertOrNothing_elim hins with ⟨-, rfl⟩ | ⟨habsent, -, hrows⟩
  · exact .inl ⟨hmem, rfl⟩
  · refine .inr ⟨fun b hb hbv hba => habsent b hb (Prod.ext hbv hba), ?_⟩
    have hrow : i.row now ∈ t'.rows := by rw [hrows]; exact List.mem_cons_self
    obtain rfl := t'.eq_of_uq hrow hmem (Prod.ext hv.symm ha.symm)
    exact hrows

/-- A call that throws has changed nothing. -/
theorem createFirmwareRelease_error (h : createFirmwareRelease t i now = (t', .error msg)) : t' = t := by
  unfold createFirmwareRelease at h
  split at h
  · cases h
    rfl
  next t₁ hins =>
  rcases Table.insertOrNothing_elim hins with ⟨-, rfl⟩ | ⟨-, -, hrows⟩
  · split at h
    · cases h
      rfl
    · split at h <;> cases h
      rfl
  · -- the fresh row is found and fits itself
    have hget : getFirmwareReleaseByVersionArch t₁.rows i.version i.arch = some (i.row now) :=
      getFirmwareRelease_of_mem (by rw [hrows]; exact List.mem_cons_self) rfl rfl
    rw [hget] at h
    simp [FirmwareInput.row] at h

theorem mem_yank {a : FirmwareRelease} (h : a ∈ (yankFirmwareRelease t id now).rows) :
    ∃ b ∈ t.rows, a.version = b.version ∧ a.arch = b.arch ∧ a.sha256 = b.sha256 ∧ a.channel = b.channel ∧
      (b.yanked_at.isSome → a.yanked_at.isSome) ∧ a.id = b.id ∧ (b.id = id → a.yanked_at.isSome) := by
  obtain ⟨b, hb, rfl⟩ := Table.mem_update.1 h
  refine ⟨b, hb, ?_⟩
  split
  · simp
  · next hne => simp [hne]

end Spec

/-- What has happened to the version `version` of `arch`. -/
inductive Event where
  /-- `createFirmwareRelease` returned a release with this content and channel. -/
  | published (version arch sha256 : String) (channel : Channel)
  | yanked (version arch : String)
deriving DecidableEq

/-- The release rows, and what was created and yanked. -/
structure History where
  world : World FirmwareRelease
  now : Nat
  /-- Oldest first. -/
  log : List Event

/-- What administrators, the cleanup and the disk do. -/
inductive Step where
  | create (i : FirmwareInput)
  | yank (id : String)
  | cleanup
  /-- Rollouts are created, change their state or go. -/
  | rollouts (rs : List Rollout)
  /-- Files come and go, and so do the faults of the file system and of the database. -/
  | disk (files stuckFiles stuckRows : List String)
  | elapse (us : Nat)

namespace History

def rows (s : History) : List FirmwareRelease := s.world.releases.rows

/-- The table after a call, with its events. -/
def setReleases (s : History) (t : Releases FirmwareRelease) (log : List Event) : History :=
  { s with world := { s.world with releases := t }, log := s.log ++ log }

/-- A call of `createFirmwareRelease`. -/
def create (s : History) (i : FirmwareInput) : History :=
  match createFirmwareRelease s.world.releases i s.now with
  | (t, .ok r) => s.setReleases t [.published r.version r.arch r.sha256 r.channel]
  | (t, .error _) => s.setReleases t []

/-- A call of `yankFirmwareRelease`. -/
def yank (s : History) (id : String) : History :=
  s.setReleases (yankFirmwareRelease s.world.releases id s.now)
    ((s.rows.filter fun r => r.id = id).map fun r => .yanked r.version r.arch)

def step (s : History) : Step → Option History
  | .create i => some (s.create i)
  | .yank id => some (s.yank id)
  | .cleanup => some { s with world := after cleanupFirmware s.world }
  | .rollouts rs => some { s with world := { s.world with rollouts := rs } }
  | .disk files stuckFiles stuckRows => some { s with world := { s.world with files, stuckFiles, stuckRows } }
  | .elapse us => some { s with now := s.now + us }

end History

/-! ### The law -/

/-- What may follow an event: no other content or channel of a published version, and no publication
of a yanked one. -/
def Event.Allows : Event → Event → Prop
  | .published v a sha ch, .published v' a' sha' ch' => v = v' → a = a' → sha' = sha ∧ ch' = ch
  | .yanked v a, .published v' a' _ _ => v = v' → a ≠ a'
  | _, .yanked _ _ => True

/-- The event is what the row says about its version. -/
def Event.Fits : Event → FirmwareRelease → Prop
  | .published v a sha ch, r => v = r.version → a = r.arch → r.sha256 = sha ∧ r.channel = ch
  | .yanked v a, r => v = r.version → a = r.arch → r.yanked_at.isSome

instance : ∀ e f : Event, Decidable (e.Allows f)
  | .published .., .published .. | .yanked .., .published .. => inferInstanceAs (Decidable (_ → _))
  | .published .., .yanked .. | .yanked .., .yanked .. => .isTrue trivial

/-- No version is published twice, and what is yanked stays so. -/
structure Lawful (s : History) : Prop where
  allowed : s.log.Pairwise Event.Allows
  byVersion : ∀ v a r, .yanked v a ∈ s.log → getFirmwareReleaseByVersionArch s.rows v a = some r →
    r.yanked_at.isSome
  latest : ∀ v a ch r, .yanked v a ∈ s.log → getLatestFirmwareRelease s.rows ch a = some r → r.version ≠ v

/-- No import comes for a version whose row is gone, unless the version was never yanked and
the import brings the content and the channel it was published with. -/
def Tombstoned (s : History) : Step → Prop
  | .create i =>
    (∀ r ∈ s.rows, r.version = i.version → r.arch ≠ i.arch) →
      ∀ e ∈ s.log, e.Allows (.published i.version i.arch i.sha256 i.channel)
  | _ => True

instance {s : History} : ∀ l, Decidable (Tombstoned s l)
  | .create _ => inferInstanceAs (Decidable (_ → _))
  | .yank _ | .cleanup | .rollouts _ | .disk .. | .elapse _ => .isTrue trivial

/-- What the log allows, and what it says of the rows. -/
structure Inv (s : History) : Prop where
  allowed : s.log.Pairwise Event.Allows
  fits : ∀ e ∈ s.log, ∀ r ∈ s.rows, e.Fits r

variable {s s' : History}

theorem Inv.lawful (h : Inv s) : Lawful s where
  allowed := h.allowed
  byVersion v a r he hr := by
    obtain ⟨hmem, rfl, rfl⟩ := getReleaseByVersion_some hr
    exact h.fits _ he r hmem rfl rfl
  latest v a ch r he hr heq := by
    obtain ⟨hmem, -, rfl, hy⟩ := getLatestRelease_some hr
    have hsome := h.fits _ he r hmem heq.symm rfl
    rw [show r.yanked_at.isSome = false from hy] at hsome
    cases hsome

theorem inv_init (w : World FirmwareRelease) (now : Nat) : Inv ⟨w, now, []⟩ := ⟨.nil, by simp⟩

/-- Rows only go, and nothing is written down. -/
theorem Inv.shrink {w : World FirmwareRelease} {now : Nat} (h : Inv s) (hw : w.releases.rows ⊆ s.rows) :
    Inv { s with world := w, now } :=
  ⟨h.allowed, fun e he r hr => h.fits e he r (hw hr)⟩

theorem Inv.create {i : FirmwareInput} (h : Inv s) (hg : Tombstoned s (.create i)) : Inv (s.create i) := by
  unfold History.create
  split
  · next t r hc =>
    obtain ⟨hv, ha, hsha, hch, hy, hrow⟩ := createFirmwareRelease_ok hc
    have hallows : ∀ e ∈ s.log, e.Allows (.published r.version r.arch r.sha256 r.channel) := by
      intro e he
      rcases hrow with ⟨hmem, rfl⟩ | ⟨habsent, -⟩
      · -- the row is there, and fits every event of its version
        have hfit := h.fits e he r hmem
        cases e with
        | published v a sha ch => exact hfit
        | yanked v a => exact fun hv ha => by simpa [hy] using hfit hv ha
      · rw [hv, ha, hsha, hch]
        exact hg habsent e he
    refine ⟨List.pairwise_append.2 ⟨h.allowed, List.pairwise_singleton _ _, by simpa using hallows⟩, ?_⟩
    intro e he b hb
    have hb : b = r ∨ b ∈ s.rows := by
      rcases hrow with ⟨-, rfl⟩ | ⟨-, hrows⟩
      · exact .inr hb
      · exact List.mem_cons.1 (hrows ▸ hb)
    rcases List.mem_append.1 he with hold | hnew
    · rcases hb with rfl | hb
      · have := hallows e hold
        cases e with
        | published v a sha ch => exact this
        | yanked v a => exact fun hv ha => absurd ha (this hv)
      · exact h.fits e hold b hb
    · obtain rfl := List.mem_singleton.1 hnew
      intro hbv hba
      rcases hb with rfl | hb
      · exact ⟨rfl, rfl⟩
      · rcases hrow with ⟨hmem, -⟩ | ⟨habsent, -⟩
        · obtain rfl := Table.eq_of_uq hmem hb (Prod.ext hbv hba)
          exact ⟨rfl, rfl⟩
        · exact absurd (hba.symm.trans ha) (habsent b hb (hbv.symm.trans hv))
  · next t msg hc =>
    obtain rfl := createFirmwareRelease_error hc
    exact ⟨by simpa [History.setReleases] using h.allowed, by simpa [History.setReleases,
      History.rows] using h.fits⟩

theorem Inv.yank {id : String} (h : Inv s) : Inv (s.yank id) := by
  have hyanked : ∀ e ∈ (s.rows.filter fun r => r.id = id).map fun r => Event.yanked r.version r.arch,
      ∃ r ∈ s.rows, r.id = id ∧ e = .yanked r.version r.arch := by
    intro e he
    obtain ⟨r, hr, rfl⟩ := List.mem_map.1 he
    exact ⟨r, (List.mem_filter.1 hr).1, by simpa using (List.mem_filter.1 hr).2, rfl⟩
  refine ⟨List.pairwise_append.2 ⟨h.allowed, ?_, ?_⟩, ?_⟩
  · exact List.pairwise_map.2 (List.pairwise_of_forall fun _ _ => trivial)
  · intro e _ f hf
    obtain ⟨r, -, -, rfl⟩ := hyanked f hf
    cases e <;> trivial
  · intro e he a ha
    obtain ⟨b, hb, hv, har, hsha, hch, hkeep, hid, hnew⟩ := mem_yank ha
    rcases List.mem_append.1 he with he | he
    · have := h.fits e he b hb
      cases e with
      | published v c sha ch => exact fun h1 h2 => by rw [hsha, hch]; exact this (h1.trans hv) (h2.trans har)
      | yanked v c => exact fun h1 h2 => hkeep (this (h1.trans hv) (h2.trans har))
    · obtain ⟨r, hr, hrid, rfl⟩ := hyanked e he
      intro h1 h2
      obtain rfl := Table.eq_of_uq hr hb (Prod.ext (h1.trans hv) (h2.trans har))
      exact hnew hrid

theorem Inv.step {l : Step} (h : Inv s) (hg : Tombstoned s l) (hs : s.step l = some s') : Inv s' := by
  cases l with
  | create i => exact Option.some.inj hs ▸ h.create hg
  | yank id => exact Option.some.inj hs ▸ h.yank
  | cleanup => exact Option.some.inj hs ▸ h.shrink (shrinks_cleanup s.world)
  | rollouts rs => exact Option.some.inj hs ▸ h.shrink (List.Subset.refl _)
  | disk files stuckFiles stuckRows => exact Option.some.inj hs ▸ h.shrink (List.Subset.refl _)
  | elapse us => exact Option.some.inj hs ▸ h.shrink (List.Subset.refl _)

end ReleaseHistory
