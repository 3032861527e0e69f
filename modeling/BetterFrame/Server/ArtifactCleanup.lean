import BetterFrame.Lib.OrdMap
import BetterFrame.Lib.Transaction
import BetterFrame.Server.Releases

/-!
# Cleanup of release artifacts

`shared/artifact-cleanup.ts`. A pass first goes over the yanked releases and then, for each channel
and target, over the releases beyond the five newest; a release that a queued, active or paused
rollout names is skipped, any other loses its artifact file and its row. Both kinds of release run
through the same statements, so the pass is written once over `ReleaseKind`.

The pass works row by row, while `storeBlob` names a file by the digest of its bytes: rows with equal
bytes share one file. `cleanup_keeps_files_iff` says exactly when the pass nevertheless leaves every
remaining row its file.
-/

namespace ArtifactCleanup

open ReleaseKind

/-- The tables and the file system a pass works on, and its log. -/
structure World (R : Type) [ReleaseKind R] where
  releases : Releases R
  rollouts : List Rollout
  files : List String
  /-- The paths whose `unlink` fails with another error than `ENOENT`. -/
  stuckFiles : List String
  /-- The ids whose `DELETE` fails. -/
  stuckRows : List String
  log : List String

def KEEP_PER_CHANNEL : Nat := 5

section Pass

variable {R : Type} [ReleaseKind R]

/-- A pass over the releases, which may throw half way. -/
abbrev Pass (R : Type) [ReleaseKind R] := EStateM String (World R)

/-- Whether there was a file to remove. -/
def removeFile (path : String) : Pass R Bool := fun w =>
  if path ∈ w.stuckFiles then .error "EPERM" w
  else if path ∈ w.files then .ok true { w with files := w.files.filter (· ≠ path) }
  else .ok false w

def info (msg : String) : Pass R Unit := fun w => .ok () { w with log := w.log ++ [msg] }

/-- `DELETE FROM … WHERE id = ?`; the rollouts of the release go with it. -/
def deleteRelease (id : String) : Pass R Unit := fun w =>
  if id ∈ w.stuckRows then .error "delete failed" w
  else .ok () { w with
    releases := w.releases.filter fun r => (release r).id ≠ id
    rollouts := w.rollouts.filter fun r => r.release_id ≠ id }

def activeReleaseIds (rollouts : List Rollout) : List String :=
  (rollouts.filter fun r => r.state.holds).map Rollout.release_id

/-- The body of both loops, over the releases of `rs`: how many files it removed. -/
def sweep (activeIds : List String) (msg : R → String) : List R → Pass R Nat
  | [] => pure 0
  | r :: rs =>
    if (release r).id ∈ activeIds then sweep activeIds msg rs
    else do
      let removed ← removeFile (release r).artifact_path
      (if removed then info (msg r) else pure ())
      deleteRelease (release r).id
      let cleaned ← sweep activeIds msg rs
      return cleaned + removed.toNat

/-- Releases are kept for each channel and target. -/
def channelKey (r : R) : String := (release r).channel.toString ++ ":" ++ target r

/-- The releases by channel and target, in the order of `rs`. -/
def byKey (rs : List R) : OrdMap String (List R) :=
  rs.foldl (fun m r => m.set (channelKey r) ((m.get? (channelKey r)).getD [] ++ [r])) .empty

/-- ISO texts of upload times have milliseconds. -/
def isoLater (a b : R) : Prop := (release b).uploaded_at / 1000 ≤ (release a).uploaded_at / 1000

instance : DecidableRel (isoLater (R := R)) := fun _ _ => Nat.decLe _ _

/-- All but the newest releases of a channel. -/
def excess (rs : List R) : List R := (rs.insertionSort isoLater).drop KEEP_PER_CHANNEL

/-- A pass over one kind of release: how many files it removed. -/
def cleanup (yankedMsg prunedMsg : R → String) : Pass R Nat := do
  let w ← get
  let activeIds := activeReleaseIds w.rollouts
  let cleaned ← sweep activeIds yankedMsg (listYankedReleases w.releases.rows)
  let w ← get
  let all := listReleases w.releases.rows
  let active := all.filter fun r => !isYanked r
  let pruned ← sweep activeIds prunedMsg ((byKey active).entries.flatMap fun e => excess e.2)
  return cleaned + pruned

end Pass

def cleanupFirmware : Pass FirmwareRelease Nat :=
  cleanup (fun r => "firmware cleanup: deleted artifact for yanked " ++ r.version ++ " (" ++ r.arch ++ ")")
    (fun r => "firmware cleanup: pruned old " ++ r.version ++ " (" ++ r.arch ++ ")")

def cleanupOsUpdates : Pass OsUpdateRelease Nat :=
  cleanup (fun r => "os-update cleanup: deleted artifact for yanked " ++ r.version)
    (fun r => "os-update cleanup: pruned old " ++ r.version)

/-! ### What a sweep does -/

section Sweep

variable {R : Type} [ReleaseKind R] {w w' : World R} {activeIds : List String} {msg : R →
  String} {rs : List R}

/-- The rows and the files that are left when the releases `rs` have been swept. -/
structure Swept (activeIds : List String) (rs : List R) (w w' : World R) : Prop where
  rows : w'.releases.rows = w.releases.rows.filter fun r =>
    ∀ d ∈ rs, (release d).id ∉ activeIds → (release d).id ≠ (release r).id
  files : ∀ p, p ∈ w'.files ↔ p ∈ w.files ∧ ∀ d ∈ rs, (release d).id ∉ activeIds →
    (release d).artifact_path ≠ p

theorem removeFile_ok {path : String} {b : Bool} (h : removeFile path w = .ok b w') :
    w' = { w with files := w.files.filter (· ≠ path) } := by
  unfold removeFile at h
  split_ifs at h with _ hmem
  · exact (EStateM.Result.ok.inj h).2.symm
  · obtain ⟨-, rfl⟩ := EStateM.Result.ok.inj h
    have : w.files.filter (· ≠ path) = w.files :=
      List.filter_eq_self.2 fun p hp => decide_eq_true fun he => hmem (he ▸ hp)
    rw [this]

theorem info_ok {m : String} {u : Unit} (h : info m w = .ok u w') :
    w'.releases = w.releases ∧ w'.files = w.files := by
  obtain ⟨-, rfl⟩ := EStateM.Result.ok.inj h
  exact ⟨rfl, rfl⟩

theorem deleteRelease_ok {id : String} {u : Unit} (h : deleteRelease id w = .ok u w') :
    w'.releases = w.releases.filter (fun r => (release r).id ≠ id) ∧ w'.files = w.files := by
  unfold deleteRelease at h
  split_ifs at h
  obtain ⟨-, rfl⟩ := EStateM.Result.ok.inj h
  exact ⟨rfl, rfl⟩

/-- The world a pass leaves, also when it throws. -/
def after {α : Type} (x : Pass R α) (w : World R) : World R :=
  match x w with
  | .ok _ w' | .error _ w' => w'

/-- Whatever it returns or throws, the pass adds no row and changes none. -/
def Shrinks {α : Type} (x : Pass R α) : Prop := ∀ w, (after x w).releases.rows ⊆ w.releases.rows

theorem Shrinks.of_eq {α : Type} {x : Pass R α} (h : ∀ w, (after x w).releases = w.releases) : Shrinks x :=
  fun w => by rw [h w]; exact List.Subset.refl _

theorem Shrinks.bind {α β : Type} {x : Pass R α} {f : α → Pass R β} (hx : Shrinks x)
    (hf : ∀ a, Shrinks (f a)) :
    Shrinks (x >>= f) := by
  intro w
  change (after (EStateM.bind x f) w).releases.rows ⊆ _
  have hw := hx w
  unfold after EStateM.bind at *
  rcases hxw : x w with ⟨a, v⟩ | ⟨e, v⟩ <;> simp only [hxw] at hw ⊢
  · exact List.Subset.trans (hf a v) hw
  · exact hw

theorem shrinks_pure {α : Type} {a : α} : Shrinks (pure a : Pass R α) := .of_eq fun _ => rfl

theorem shrinks_removeFile {path : String} : Shrinks (removeFile path : Pass R Bool) :=
  .of_eq fun w => by
    unfold after removeFile
    split_ifs <;> rfl

theorem shrinks_deleteRelease {id : String} : Shrinks (deleteRelease id : Pass R Unit) := by
  intro w
  unfold after deleteRelease
  split_ifs
  · exact List.Subset.refl _
  · exact List.filter_subset_self _

theorem shrinks_sweep : Shrinks (sweep activeIds msg rs) := by
  induction rs with
  | nil => exact shrinks_pure
  | cons r rs ih =>
    unfold sweep
    split
    · exact ih
    refine shrinks_removeFile.bind fun removed => .bind ?_ fun _ => shrinks_deleteRelease.bind fun _ =>
      ih.bind fun _ => shrinks_pure
    cases removed
    · exact shrinks_pure
    · exact .of_eq fun _ => rfl

theorem shrinks_cleanup {yankedMsg prunedMsg : R → String} : Shrinks (cleanup yankedMsg prunedMsg) :=
  have hget : Shrinks (get : Pass R (World R)) := .of_eq fun _ => rfl
  hget.bind fun _ => shrinks_sweep.bind fun _ => hget.bind fun _ => shrinks_sweep.bind fun _ => shrinks_pure

/-- Whether a pass finishes. -/
def finishes (x : Pass R Nat) (w : World R) : Bool :=
  match x w with
  | .ok _ _ => true
  | .error _ _ => false

theorem exists_ok {x : Pass R Nat} (h : finishes x w) : ∃ n w', x w = .ok n w' := by
  unfold finishes at h
  split at h
  · next n w' hx => exact ⟨n, w', hx⟩
  · cases h

theorem Swept.nil : Swept activeIds [] w w := ⟨by simp, by simp⟩

theorem Swept.skip {r : R} (hr : (release r).id ∈ activeIds) (h : Swept activeIds rs w w') :
    Swept activeIds (r :: rs) w w' :=
  ⟨h.rows.trans (by simp [hr]), fun p => (h.files p).trans (by simp [hr])⟩

theorem Swept.append {rs' : List R} {v : World R} (h : Swept activeIds rs w v)
    (h' : Swept activeIds rs' v w') :
    Swept activeIds (rs ++ rs') w w' where
  rows := by
    rw [h'.rows, h.rows, List.filter_filter]
    refine List.filter_congr fun r _ => ?_
    rw [Bool.eq_iff_iff, Bool.and_eq_true, decide_eq_true_eq, decide_eq_true_eq, decide_eq_true_eq,
      List.forall_mem_append, and_comm]
  files p := by
    rw [h'.files, h.files, List.forall_mem_append, and_assoc]

/-- One release that is not skipped. -/
theorem Swept.one {r : R} {v : World R} (hr : (release r).id ∉ activeIds)
    (hrows : v.releases = w.releases.filter fun a => (release a).id ≠ (release r).id)
    (hfiles : v.files = w.files.filter (· ≠ (release r).artifact_path)) : Swept activeIds [r] w v where
  rows := by
    rw [hrows]
    refine List.filter_congr fun a _ => ?_
    rw [Bool.eq_iff_iff, decide_eq_true_eq, decide_eq_true_eq, List.forall_mem_singleton]
    exact ⟨fun h _ => h.symm, fun h => (h hr).symm⟩
  files p := by
    rw [hfiles, List.mem_filter, List.forall_mem_singleton, decide_eq_true_eq]
    exact and_congr_right fun _ => ⟨fun h _ => h.symm, fun h => (h hr).symm⟩

theorem sweep_ok {n : Nat} (h : sweep activeIds msg rs w = .ok n w') : Swept activeIds rs w w' := by
  induction rs generalizing w n with
  | nil =>
    obtain ⟨-, rfl⟩ := EStateM.Result.ok.inj h
    exact .nil
  | cons r rs ih =>
    unfold sweep at h
    split_ifs at h with hr
    · exact (ih h).skip hr
    obtain ⟨removed, w₁, h₁, h⟩ := EStateM.bind_eq_ok h
    obtain ⟨_, w₂, h₂, h⟩ := EStateM.bind_eq_ok h
    obtain ⟨_, w₃, h₃, h⟩ := EStateM.bind_eq_ok h
    obtain ⟨m, w₄, h₄, h⟩ := EStateM.bind_eq_ok h
    obtain ⟨-, rfl⟩ := EStateM.Result.ok.inj h
    obtain rfl := removeFile_ok h₁
    have h₂' : w₂.releases = w.releases ∧ w₂.files = w.files.filter (· ≠ (release r).artifact_path) := by
      cases removed with
      | true => exact info_ok h₂
      | false =>
        obtain ⟨-, rfl⟩ := EStateM.Result.ok.inj h₂
        exact ⟨rfl, rfl⟩
    obtain ⟨hrows, hfiles⟩ := deleteRelease_ok h₃
    exact (Swept.one hr (by rw [hrows, h₂'.1]) (by rw [hfiles, h₂'.2])).append (ih h₄)

/-! ### Which releases a pass sweeps -/

theorem get?_byKey_foldl {m : OrdMap String (List R)} {k : String} :
    (rs.foldl (fun m r => m.set (channelKey r) ((m.get? (channelKey r)).getD [] ++ [r])) m).get? k =
      if rs.filter (channelKey · = k) = [] then m.get? k
      else some ((m.get? k).getD [] ++ rs.filter (channelKey · = k)) := by
  induction rs generalizing m with
  | nil => simp
  | cons r rs ih =>
    rw [List.foldl_cons, ih, OrdMap.get?_set, List.filter_cons]
    by_cases hk : channelKey r = k
    · subst hk
      by_cases hnil : rs.filter (channelKey · = channelKey r) = [] <;> simp [hnil]
    · simp [hk, Ne.symm hk]

theorem get?_byKey {k : String} :
    (byKey rs).get? k = if rs.filter (channelKey · = k) = [] then none
    else some (rs.filter (channelKey · = k)) := by
  simp [byKey, get?_byKey_foldl]

theorem mem_pruned {r : R} : r ∈ ((byKey rs).entries.flatMap fun e => excess e.2) ↔
    r ∈ excess (rs.filter (channelKey · = channelKey r)) := by
  have hmem : ∀ {l : List R}, r ∈ excess l → r ∈ l := fun h =>
    (List.mem_insertionSort _).1 (List.mem_of_mem_drop h)
  rw [List.mem_flatMap]
  constructor
  · rintro ⟨⟨k, l⟩, he, hr⟩
    have hget := OrdMap.get?_eq_some.2 he
    rw [get?_byKey] at hget
    split_ifs at hget
    obtain rfl := Option.some.inj hget
    obtain rfl : channelKey r = k := by simpa using (List.mem_filter.1 (hmem hr)).2
    exact hr
  · intro hr
    refine ⟨⟨channelKey r, _⟩, OrdMap.get?_eq_some.1 ?_, hr⟩
    rw [get?_byKey, if_neg (List.ne_nil_of_mem (hmem hr))]

theorem excess_of_sorted (h : rs.Pairwise uploadedLater) : excess rs = rs.drop KEEP_PER_CHANNEL := by
  have hiso : rs.Pairwise isoLater := h.imp fun h => Nat.div_le_div_right h
  rw [excess, hiso.insertionSort_eq]

variable [DecidableEq R]

/-- The non-yanked releases of the channel and target of `r` that a listing shows before `r`. -/
def newer (w : World R) (r : R) : List R :=
  ((listReleases w.releases.rows).filter fun a => !isYanked a && channelKey a = channelKey r).takeWhile
    (· ≠ r)

/-- The release is yanked or beyond the newest five, and no queued, active or paused rollout has it. -/
def Doomed (w : World R) (r : R) : Prop :=
  (release r).id ∉ activeReleaseIds w.rollouts ∧ (isYanked r ∨ KEEP_PER_CHANNEL ≤ (newer w r).length)

instance {r : R} : Decidable (Doomed w r) := inferInstanceAs (Decidable (_ ∧ _))

theorem mem_pruned_listing {r : R} (hr : r ∈ w.releases.rows) (hy : isYanked r = false) :
    r ∈ ((byKey ((listReleases w.releases.rows).filter fun a => !isYanked a)).entries.flatMap fun e =>
      excess e.2) ↔ KEEP_PER_CHANNEL ≤ (newer w r).length := by
  have hlist : (((listReleases w.releases.rows).filter fun a => !isYanked a).filter
    (channelKey · = channelKey r)) =
      (listReleases w.releases.rows).filter fun a => !isYanked a && channelKey a = channelKey r := by
    rw [List.filter_filter]
    exact List.filter_congr fun a _ => by rw [Bool.and_comm]
  have hnodup : (listReleases w.releases.rows).Nodup :=
    (List.perm_insertionSort _ _).nodup_iff.2 w.releases.nodup
  have hsorted : (listReleases w.releases.rows).Pairwise uploadedLater := List.pairwise_insertionSort _ _
  rw [mem_pruned, hlist, excess_of_sorted (hsorted.filter _),
    List.mem_drop_iff_takeWhile (hnodup.filter _), newer]
  exact and_iff_right (List.mem_filter.2 ⟨mem_listReleases.2 hr, by simp [hy]⟩)

/-- What a finished pass leaves: the rows that are not doomed, and the files no doomed row names. -/
theorem cleanup_ok {yankedMsg prunedMsg : R → String} {n : Nat}
    (h : cleanup yankedMsg prunedMsg w = .ok n w') :
    (∀ r, r ∈ w'.releases.rows ↔ r ∈ w.releases.rows ∧ ¬ Doomed w r) ∧
    ∀ p, p ∈ w'.files ↔ p ∈ w.files ∧ ∀ d ∈ w.releases.rows, Doomed w d → (release d).artifact_path ≠ p := by
  unfold cleanup at h
  obtain ⟨_, _, hget, h⟩ := EStateM.bind_eq_ok h
  obtain ⟨rfl, rfl⟩ := EStateM.Result.ok.inj hget
  obtain ⟨a, v, hsweep, h⟩ := EStateM.bind_eq_ok h
  obtain ⟨_, _, hget, h⟩ := EStateM.bind_eq_ok h
  obtain ⟨rfl, rfl⟩ := EStateM.Result.ok.inj hget
  obtain ⟨b, v', hsweep', h⟩ := EStateM.bind_eq_ok h
  obtain ⟨-, rfl⟩ := EStateM.Result.ok.inj h
  have hy := sweep_ok hsweep
  have hall := hy.append (sweep_ok hsweep')
  -- the second listing has the non-yanked rows of the first
  have hactive : ((listReleases v.releases.rows).filter fun a => !isYanked a) =
      (listReleases w.releases.rows).filter fun a => !isYanked a := by
    simp only [listReleases, List.filter_insertionSort]
    rw [hy.rows, List.filter_filter]
    congr 1
    refine List.filter_congr fun r hr => ?_
    by_cases hyr : isYanked r
    · simp [hyr]
    · simp only [hyr, Bool.not_false, Bool.true_and, decide_eq_true_eq]
      intro d hd _ hid
      obtain ⟨hd, hyd⟩ := mem_listYankedReleases.1 hd
      exact hyr (Table.eq_of_pk hd hr hid ▸ hyd)
  rw [hactive] at hall
  have hdoomed : ∀ d, (d ∈ listYankedReleases w.releases.rows ++
    ((byKey ((listReleases w.releases.rows).filter
      fun a => !isYanked a)).entries.flatMap fun e => excess e.2) ∧
      (release d).id ∉ activeReleaseIds w.rollouts) ↔ d ∈ w.releases.rows ∧ Doomed w d := by
    intro d
    rw [List.mem_append, mem_listYankedReleases]
    by_cases hd : d ∈ w.releases.rows
    · by_cases hyd : isYanked d
      · simp [hd, hyd, Doomed]
      · have hyd : isYanked d = false := by simpa using hyd
        rw [mem_pruned_listing hd hyd]
        simp [hd, hyd, Doomed, and_comm]
    · have hnot : d ∉ ((byKey ((listReleases w.releases.rows).filter fun a => !isYanked a)).entries.flatMap
          fun e => excess e.2) := fun h => by
        have := List.mem_of_mem_drop (mem_pruned.1 h)
        simp [hd] at this
      simp [hd, hnot]
  constructor
  · intro r
    rw [hall.rows, List.mem_filter, decide_eq_true_eq]
    refine and_congr_right fun hr => ⟨fun hkeep hdr => ?_, fun hnot d hd hact hid => ?_⟩
    · have := (hdoomed r).2 ⟨hr, hdr⟩
      exact hkeep r this.1 this.2 rfl
    · obtain ⟨hdr, hdd⟩ := (hdoomed d).1 ⟨hd, hact⟩
      exact hnot (Table.eq_of_pk hdr hr hid ▸ hdd)
  · intro p
    rw [hall.files]
    refine and_congr_right fun _ => ⟨fun hkeep d hd hdd => ?_, fun hkeep d hd hact => ?_⟩
    · have := (hdoomed d).2 ⟨hd, hdd⟩
      exact hkeep d this.1 this.2
    · obtain ⟨hdr, hdd⟩ := (hdoomed d).1 ⟨hd, hact⟩
      exact hkeep d hdr hdd

/-- Every row that is left still has its artifact file, if it had one. -/
def KeepsFiles (w w' : World R) : Prop :=
  ∀ r ∈ w'.releases.rows, (release r).artifact_path ∈ w.files → (release r).artifact_path ∈ w'.files

/-- No doomed row names an existing file that a row which is not doomed names too. -/
def DoomedAlone (w : World R) : Prop :=
  ∀ d ∈ w.releases.rows, Doomed w d → (release d).artifact_path ∈ w.files →
    ∀ r ∈ w.releases.rows, ¬ Doomed w r → (release r).artifact_path ≠ (release d).artifact_path

instance : Decidable (DoomedAlone w) := inferInstanceAs (Decidable (∀ d ∈ _, _))

theorem keepsFiles_iff {yankedMsg prunedMsg : R → String} {n : Nat}
    (h : cleanup yankedMsg prunedMsg w = .ok n w') : KeepsFiles w w' ↔ DoomedAlone w := by
  obtain ⟨hrows, hfiles⟩ := cleanup_ok h
  constructor
  · intro hkeep d hd hdd hdf r hr hdr heq
    have hr' := hkeep r ((hrows r).2 ⟨hr, hdr⟩) (heq ▸ hdf)
    exact ((hfiles _).1 hr').2 d hd hdd heq.symm
  · intro halone r hr hrf
    obtain ⟨hr, hdr⟩ := (hrows r).1 hr
    exact (hfiles _).2 ⟨hrf, fun d hd hdd heq => halone d hd hdd (heq ▸ hrf) r hr hdr heq.symm⟩

end Sweep

/-- A finished pass of either kind keeps the files of the rows it leaves exactly when no row it
deletes shares its file with a row it leaves. -/
theorem cleanup_keeps_files_iff (fw : World FirmwareRelease) (os : World OsUpdateRelease) :
    (∀ n fw', cleanupFirmware fw = .ok n fw' → (KeepsFiles fw fw' ↔ DoomedAlone fw)) ∧
    ∀ n os', cleanupOsUpdates os = .ok n os' → (KeepsFiles os os' ↔ DoomedAlone os) :=
  ⟨fun _ _ h => keepsFiles_iff h, fun _ _ h => keepsFiles_iff h⟩

/-- A yanked firmware release `v1` and a live one `v2`, stored under the given paths. -/
def yankedAndLive (path₁ path₂ : String) : World FirmwareRelease where
  releases := ⟨[
    { id := "r1", version := "1.0.0", channel := .stable, artifact_path := path₁, size_bytes := 9,
      sha256 := "aa",
      release_notes := none, uploaded_at := 1, uploaded_by := none, yanked_at := some 3,
      arch := "betterframe-pc-x86_64", signature := "s1" },
    { id := "r2", version := "1.0.1", channel := .stable, artifact_path := path₂, size_bytes := 9,
      sha256 := "aa",
      release_notes := none, uploaded_at := 2, uploaded_by := none, yanked_at := none,
      arch := "betterframe-pc-x86_64", signature := "s1" }], by simp [release], by simp [release]⟩
  rollouts := []
  files := [path₁, path₂]
  stuckFiles := []
  stuckRows := []
  log := []

def osYankedAndLive (path₁ path₂ : String) : World OsUpdateRelease where
  releases := ⟨[
    { id := "o1", version := "1.0.0", channel := .beta, artifact_path := path₁, size_bytes := 9,
      sha256 := "aa",
      release_notes := none, uploaded_at := 1, uploaded_by := none, yanked_at := some 3,
      compatibility := "betterframe-pc-x86_64" },
    { id := "o2", version := "1.0.1", channel := .beta, artifact_path := path₂, size_bytes := 9,
      sha256 := "bb",
      release_notes := none, uploaded_at := 2, uploaded_by := none, yanked_at := none,
      compatibility := "betterframe-pc-x86_64" }], by simp [release], by simp [release]⟩
  rollouts := []
  files := [path₁, path₂]
  stuckFiles := []
  stuckRows := []
  log := []

theorem cleanup_keeps_files_yankedAndLive :
    (∃ n w', cleanupFirmware (yankedAndLive "a.bin" "b.bin") = .ok n w' ∧
      KeepsFiles (yankedAndLive "a.bin" "b.bin") w') ∧
    ∃ n w', cleanupOsUpdates (osYankedAndLive "a.raucb" "b.raucb") = .ok n w' ∧
      KeepsFiles (osYankedAndLive "a.raucb" "b.raucb") w' := by
  obtain ⟨n, w, h⟩ := exists_ok (x := cleanupFirmware) (w := yankedAndLive "a.bin" "b.bin") (by decide)
  obtain ⟨m, v, h'⟩ := exists_ok (x := cleanupOsUpdates) (w := osYankedAndLive "a.raucb" "b.raucb")
    (by decide)
  have hiff := cleanup_keeps_files_iff (yankedAndLive "a.bin" "b.bin") (osYankedAndLive "a.raucb" "b.raucb")
  exact ⟨⟨n, w, h, (hiff.1 _ _ h).2 (by decide)⟩, m, v, h', (hiff.2 _ _ h').2 (by decide)⟩

/-- The two releases have the same bytes: the pass deletes the file of the live one with the yanked. -/
theorem cleanup_removes_shared_file : ¬ ∀ (w w' : World FirmwareRelease) n,
    cleanupFirmware w = .ok n w' → KeepsFiles w w' := by
  intro hkeep
  obtain ⟨n, w', h⟩ := exists_ok (x := cleanupFirmware) (w := yankedAndLive "aa.bin" "aa.bin") (by decide)
  exact absurd ((keepsFiles_iff h).1 (hkeep _ _ _ h)) (by decide)

end ArtifactCleanup
