import BetterFrame.Client.FirmwareRollback

/-!
# How often an app update is swapped in

The worker does not count a pass that swaps the executable. What holds back the next pass for the same
version is the executable itself: the version is taken up again only after a rollback, so there is at
most one swap more than there were rollbacks (`Counted`). The passes stay within the limit where a
version is not taken up after three rollbacks, and every download is a binary of its version (`Takes`).
-/

namespace Firmware

open Crash UpdatePolicy UpdateDownload UpdateGuard

/-- A swap to `version` has neither been taken back nor confirmed. -/
def Outstanding (version : String) (g : Guard) : Prop :=
  replaced "firmware" version g.history = rolledBack "firmware" version g.history + 1

/-- `version` is no upgrade of the executable. -/
def Outdated (P : Platform) (version : String) (c : Contents) : Prop :=
  ∀ bytes, c = .whole bytes → is_version_upgrade P.semver version (P.kiosk_app_version bytes) = false

/-- `g` is what the attempt file was. -/
structure Counted (P : Platform) (g : Guard) (s : World) : Prop where
  usable : s.guard.usable = true
  only : Only "firmware" g s.guard
  limited : Limited "firmware" s.guard.history
  count : ∀ version,
    replaced "firmware" version s.guard.history ≤ rolledBack "firmware" version s.guard.history + 1
  bin : ∀ version, Outstanding version s.guard → Outdated P version s.bin
  /-- Nor does the rollback of another version lead behind the swap. -/
  prev : ∀ version, Outstanding version s.guard → ∀ marker previous, s.marker = some marker →
    marker.version ≠ version → s.prev = some previous → Outdated P version previous

/-- Successes of the app have been recorded. -/
structure Applied (g g' : Guard) : Prop where
  only : Only "firmware" g g'
  history : ∃ marks, g'.history = marks ++ g.history ∧ ∀ m ∈ marks, ∃ version, m = .success "firmware" version

/-- The executables are as they were, and the pending candidate may have been confirmed. -/
structure Drift (s t : World) : Prop where
  bin : t.bin = s.bin
  prev : t.prev = s.prev
  new : t.new = s.new ∨ t.new = none
  marker : t.marker = s.marker ∨ t.marker = none
  running : t.running = s.running
  guard : Applied s.guard t.guard

section Basics

variable {P : Platform} {g g' g'' : Guard} {s t u : World} {version : String}

theorem Applied.refl (g : Guard) : Applied g g := ⟨.refl _ g, [], rfl, by simp⟩

theorem Applied.trans (h : Applied g g') (h' : Applied g' g'') : Applied g g'' := by
  obtain ⟨marks, hm, hs⟩ := h.history
  obtain ⟨marks', hm', hs'⟩ := h'.history
  refine ⟨h.only.trans h'.only, marks' ++ marks, by rw [hm', hm, List.append_assoc], fun m hmem => ?_⟩
  exact (List.mem_append.1 hmem).elim (hs' m) (hs m)

theorem Applied.success (h : Succeeded "firmware" version g g') : Applied g g' :=
  ⟨h.only, [_], h.history, fun _ hm => ⟨version, List.mem_singleton.1 hm⟩⟩

/-- A success sets both counts back. -/
theorem Applied.counted (h : Applied g g') (version : String) :
    (replaced "firmware" version g'.history = replaced "firmware" version g.history ∧
        rolledBack "firmware" version g'.history = rolledBack "firmware" version g.history) ∨
      (replaced "firmware" version g'.history = 0 ∧ rolledBack "firmware" version g'.history = 0) := by
  obtain ⟨marks, hm, hs⟩ := h.history
  rw [hm]
  clear hm
  induction marks with
  | nil => exact .inl ⟨rfl, rfl⟩
  | cons m marks ih =>
    obtain ⟨version', rfl⟩ := hs m (List.mem_cons_self ..)
    by_cases hv : version' = version
    · subst hv
      exact .inr ⟨replaced_success, rolledBack_success⟩
    · rw [List.cons_append, replaced_cons (by simpa using hv) (by simp),
        rolledBack_cons (by simpa using hv) (by simp)]
      exact ih fun m' hm' => hs m' (List.mem_cons_of_mem _ hm')

theorem Applied.outstanding (h : Applied g g') (ho : Outstanding version g') : Outstanding version g := by
  unfold Outstanding at *
  rcases h.counted version with ⟨hr, hb⟩ | ⟨hr, hb⟩ <;> omega

theorem Drift.refl (s : World) : Drift s s := ⟨rfl, rfl, .inl rfl, .inl rfl, rfl, .refl _⟩

theorem Drift.trans (h : Drift s t) (h' : Drift t u) : Drift s u := by
  refine ⟨h'.bin.trans h.bin, h'.prev.trans h.prev, ?_, ?_, h'.running.trans h.running,
    h.guard.trans h'.guard⟩
  · rcases h'.new with hn | hn
    · rw [hn]
      exact h.new
    · exact .inr hn
  · rcases h'.marker with hm | hm
    · rw [hm]
      exact h.marker
    · exact .inr hm

theorem Still.drift (h : Still s t) : Drift s t :=
  ⟨h.bin, h.prev, h.new, .inl h.marker, h.running, by rw [h.guard]; exact .refl _⟩

theorem Drift.marked (h : Drift s t) {marker : Marker} (hm : t.marker = some marker) :
    s.marker = some marker := by
  rcases h.marker with h | h
  · exact h ▸ hm
  · rw [h] at hm
    cases hm

theorem Counted.drift (h : Counted P g s) (hd : Drift s t) : Counted P g t := by
  refine ⟨hd.guard.only.usable.trans h.usable, h.only.trans hd.guard.only, ?_, fun version => ?_,
    fun version ho => ?_, fun version ho marker previous hm hne hp => ?_⟩
  · obtain ⟨marks, hm, hs⟩ := hd.guard.history
    rw [hm]
    refine h.limited.append fun m hmem version => ?_
    obtain ⟨version', rfl⟩ := hs m hmem
    simp
  · have := h.count version
    rcases hd.guard.counted version with ⟨hr, hb⟩ | ⟨hr, hb⟩ <;> omega
  · rw [hd.bin]
    exact h.bin version (hd.guard.outstanding ho)
  · rw [hd.prev] at hp
    exact h.prev version (hd.guard.outstanding ho) marker previous (hd.marked hm) hne hp

/-- What is neither an executable nor the marker. -/
theorem Counted.congr (h : Counted P g s) (hb : t.bin = s.bin) (hp : t.prev = s.prev)
    (hm : t.marker = s.marker) (hg : t.guard = s.guard) : Counted P g t := by
  refine ⟨by rw [hg]; exact h.usable, by rw [hg]; exact h.only, by rw [hg]; exact h.limited, by
      rw [hg]; exact h.count, ?_, ?_⟩
  · rw [hg, hb]
    exact h.bin
  · rw [hg, hm, hp]
    exact h.prev

theorem Counted.restart (h : Counted P g s) : Counted P s.guard s :=
  ⟨h.usable, .refl _ _, h.limited, h.count, h.bin, h.prev⟩

/-- Passes of another kind. -/
theorem Counted.others {kind : String} (h : Counted P g s) (ho : Only kind s.guard g')
    (hne : "firmware" ≠ kind) :
    Counted P g' { s with guard := g' } := by
  have hcount := fun version => ho.counted hne version
  have hout : ∀ version, Outstanding version g' → Outstanding version s.guard := fun version h => by
    unfold Outstanding at *
    rw [(hcount version).1, (hcount version).2] at h
    exact h
  refine ⟨ho.usable.trans h.usable, .refl _ _, ho.limited hne h.limited, fun version => ?_,
    fun version h' => h.bin version (hout version h'), fun version h' => h.prev version (hout version h')⟩
  show replaced "firmware" version g'.history ≤ rolledBack "firmware" version g'.history + 1
  rw [(hcount version).1, (hcount version).2]
  exact h.count version

end Basics

/-! ### Confirmation -/

section Confirmation

variable {P : Platform} {self : Bytes} {s t : World} {ε : Type}

theorem mark_drift (hu : s.guard.usable = true) :
    wp (Drift s) (mark_firmware_applied P self) (fun _ => Drift s) (fun _ => Drift s) s := by
  refine wp_bind (wp_bind (wp_read_or (fun found _ => ?_) (.refl s)))
  rcases found with _ | marker
  · exact wp_throw (.refl s)
  dsimp only
  split
  · exact wp_throw (.refl s)
  -- the marker is removed, whether the success gets on record or not
  have hsuccess : ∀ attempts, wp (Drift s) (recordApplied marker.version) (fun _ => Drift s)
    (fun _ : Unit => Drift s)
      { s with marker := none, confirmed := self :: s.confirmed, attempts } := by
    intro attempts
    have hgone : ∀ g', Applied s.guard g' →
        Drift s { s with marker := none, confirmed := self :: s.confirmed, attempts, guard := g' } :=
          fun _ hg =>
      ⟨rfl, rfl, .inl rfl, .inr rfl, rfl, hg⟩
    unfold recordApplied
    split
    · exact wp_pure (hgone _ (.refl _))
    · refine wp_zoom (wp_record_success hu (hgone _ (.refl _)) fun g' hs => ?_)
      exact ⟨hgone g' (.success hs), hgone g' (.success hs)⟩
  have hgone : Drift s { s with marker := none, confirmed := self :: s.confirmed } :=
    ⟨rfl, rfl, .inl rfl, .inr rfl, rfl, .refl _⟩
  refine wp_bind (wp_write ?_ (.refl s) (.refl s))
  exact wp_bind (wp_ignore (wp_write (wp_pure (hsuccess none)) (wp_pure (hsuccess s.attempts)) hgone))

theorem others_drift {C : World → Prop} {E : ε → World → Prop} (hu : s.guard.usable = true)
    (hC : ∀ t, Drift s t → C t) :
    wp C (others P self) (fun _ => Drift s) E s := by
  have htimes : ∀ (n : Nat) (t : World), Drift s t →
      wp C (markTimes P self n : Prog ε World Unit) (fun _ => Drift s) E t := by
    intro n
    induction n with
    | zero => exact fun t ht => wp_pure ht
    | succ n ih =>
      intro t ht
      refine wp_bind (wp_orElse ((mark_drift (ht.guard.only.usable.trans hu)).mono (fun _ u hu => ?_)
        (fun _ u hu => wp_pure ?_) fun u hu => hC u (ht.trans hu)))
      · exact ih u (ht.trans hu)
      · exact ih u (ht.trans hu)
  exact wp_bind (wp_look (fun o t ht => htimes _ t ht.drift) (hC s (.refl s)))

end Confirmation

/-! ### A pass -/

/-- A pass that may take up the update. -/
structure Working (P : Platform) (g : Guard) (app : Bytes) (info : UpdateInfo) (s : World) : Prop
    extends Counted P g s where
  running : s.running = some app
  installed : s.bin = .whole app
  upgrade : is_version_upgrade P.semver info.version (P.kiosk_app_version app) = true
  few : rolledBack "firmware" info.version s.guard.history < ATTEMPT_LIMIT

/-- The download is there, if it was not removed. -/
structure Loaded (P : Platform) (g : Guard) (app : Bytes) (info : UpdateInfo) (bytes : Bytes) (s : World) :
    Prop
    extends Working P g app info s where
  new : s.new = some (.whole bytes) ∨ s.new = none

/-- The download is loaded and the app is saved. -/
structure Saved (P : Platform) (g : Guard) (app : Bytes) (info : UpdateInfo) (bytes : Bytes) (s : World) :
    Prop
    extends Loaded P g app info bytes s where
  backup : s.prev = some (.whole app)

/-- The marker is that of the update, if it was not confirmed. -/
structure Primed (P : Platform) (g : Guard) (app : Bytes) (info : UpdateInfo) (bytes : Bytes) (s : World) :
    Prop
    extends Saved P g app info bytes s where
  marked : ∀ marker, s.marker = some marker → marker.version = info.version

section Pass

variable {P : Platform} {g : Guard} {self bytes : Bytes} {info : UpdateInfo} {cancelable : Bool}
  {key : Option String}
  {s t : World}

theorem Working.drift (h : Working P g self info s) (hd : Drift s t) : Working P g self info t := by
  refine ⟨h.toCounted.drift hd, hd.running.trans h.running, hd.bin.trans h.installed, h.upgrade, ?_⟩
  have := h.few
  rcases hd.guard.counted info.version with ⟨-, hb⟩ | ⟨-, hb⟩
  · rw [hb]
    exact this
  · rw [hb]
    decide

theorem Loaded.drift (h : Loaded P g self info bytes s) (hd : Drift s t) : Loaded P g self info bytes t := by
  refine ⟨h.toWorking.drift hd, ?_⟩
  rcases hd.new with hn | hn
  · rw [hn]
    exact h.new
  · exact .inr hn

theorem Saved.drift (h : Saved P g self info bytes s) (hd : Drift s t) : Saved P g self info bytes t :=
  ⟨h.toLoaded.drift hd, hd.prev.trans h.backup⟩

theorem Primed.drift (h : Primed P g self info bytes s) (hd : Drift s t) : Primed P g self info bytes t :=
  ⟨h.toSaved.drift hd, fun marker hm => h.marked marker (hd.marked hm)⟩

theorem Working.new (h : Working P g self info s) (new : Option Contents) :
    Working P g self info { s with new } :=
  ⟨h.toCounted.congr rfl rfl rfl rfl, h.running, h.installed, h.upgrade, h.few⟩

/-- The executable that runs is behind every swap that is outstanding. -/
theorem Working.outdated {version : String} (h : Working P g self info s) (ho : Outstanding version s.guard) :
    is_version_upgrade P.semver version (P.kiosk_app_version self) = false :=
  h.bin version ho self h.installed

/-- The version that is taken up is not outstanding. -/
theorem Working.settled (h : Working P g self info s) :
    replaced "firmware" info.version s.guard.history ≤ rolledBack "firmware" info.version
    s.guard.history := by
  have hcount := h.count info.version
  have hne : ¬ Outstanding info.version s.guard := fun ho => by
    have hupgrade := h.upgrade
    rw [h.outdated ho] at hupgrade
    cases hupgrade
  unfold Outstanding at hne
  omega

theorem writeNew_counted (h : Working P g self info s) :
    wp (Counted P g) (writeNew cancelable bytes) (fun _ => Loaded P g self info bytes)
      (fun _ => Working P g self info) s := by
  have hnew : ∀ c, Working P g self info { s with new := some c } := fun c => h.new (some c)
  have hloaded : Loaded P g self info bytes { s with new := some (.whole bytes) } := ⟨hnew _, .inl rfl⟩
  refine wp_bind (wp_write ?_ h h.toCounted)
  refine wp_bind (wp_op ?_ (hnew .torn) (hnew .torn).toCounted (hnew .torn).toCounted)
  show wp _ _ _ _ { s with new := some (.whole bytes) }
  split
  · exact wp_ignore (wp_write hloaded hloaded hloaded.toCounted)
  · exact wp_write hloaded hloaded.toWorking hloaded.toCounted

theorem stash_counted (h : Loaded P g self info bytes s) :
    wp (Counted P g) stash_previous_binary (fun _ => Saved P g self info bytes)
    (fun _ => Working P g self info) s := by
  refine wp_bind (wp_op ?_ h.toWorking h.toCounted h.toCounted)
  refine wp_write ?_ h.toWorking h.toCounted
  have hcounted : Counted P g { s with prev := some s.bin } :=
    ⟨h.usable, h.only, h.limited, h.count, h.bin,
      fun version ho _ previous _ _ hp => by cases hp; exact h.bin version ho⟩
  exact ⟨⟨⟨hcounted, h.running, h.installed, h.upgrade, h.few⟩, h.new⟩, congrArg some h.installed⟩

theorem persist_counted (h : Saved P g self info bytes s) :
    wp (Counted P g) (persist_pending_marker info.version) (fun _ => Primed P g self info bytes)
      (fun _ => Working P g self info) s := by
  refine wp_bind (wp_write ?_ h.toWorking h.toCounted)
  refine wp_bind (wp_look (fun o t ht => ?_) h.toCounted)
  have ht := h.drift ht.drift
  refine wp_bind (wp_write ?_ ht.toWorking ht.toCounted)
  refine wp_bind (wp_write ?_ ht.toWorking ht.toCounted)
  have hreset : Saved P g self info bytes { t with attempts := none } :=
    ht.drift ⟨rfl, rfl, .inl rfl, .inl rfl, rfl, .refl _⟩
  refine wp_write ?_ hreset.toWorking hreset.toCounted
  -- the backup is the executable that is installed
  have hcounted : Counted P g { t with attempts := none, marker := some ⟨info.version, none, o.now⟩ } := by
    refine ⟨ht.usable, ht.only, ht.limited, ht.count, ht.bin, fun version ho marker previous _ _ hp => ?_⟩
    obtain rfl : Contents.whole self = previous := Option.some.inj (ht.backup.symm.trans hp)
    rw [← ht.installed]
    exact ht.bin version ho
  exact ⟨⟨⟨⟨hcounted, ht.running, ht.installed, ht.upgrade, ht.few⟩, ht.new⟩, ht.backup⟩,
    fun _ hm => by cases hm; rfl⟩

/-- The executable is swapped. -/
theorem Primed.swap (h : Primed P g self info bytes s) (hversion : P.kiosk_app_version bytes = info.version) :
    Counted P g { s with
      bin := .whole bytes, new := none
      guard := { s.guard with history := .replaced "firmware" info.version :: s.guard.history } } := by
  have hsettled := h.settled
  have hother : ∀ {version}, version ≠ info.version →
      replaced "firmware" version (.replaced "firmware" info.version :: s.guard.history) =
          replaced "firmware" version s.guard.history ∧
        rolledBack "firmware" version (.replaced "firmware" info.version :: s.guard.history) =
          rolledBack "firmware" version s.guard.history := fun hv =>
    ⟨replaced_cons (by simp) (by simpa using Ne.symm hv), rolledBack_cons (by simp) (by simp)⟩
  have hout : ∀ {version}, version ≠ info.version →
      Outstanding version { s.guard with history := .replaced "firmware" info.version :: s.guard.history } →
      Outstanding version s.guard := fun hv ho => by
    unfold Outstanding at *
    dsimp only at ho
    rw [(hother hv).1, (hother hv).2] at ho
    exact ho
  refine ⟨h.usable, h.only.trans (.mark (.inl rfl)), ⟨fun version hv => ?_, h.limited⟩, fun version => ?_,
    fun version ho bytes' hb => ?_, fun version ho marker previous hm hne hp => ?_⟩
  · cases hv
    exact Nat.lt_of_le_of_lt hsettled h.few
  · by_cases hv : version = info.version
    · subst hv
      show replaced "firmware" info.version (.replaced "firmware" info.version :: s.guard.history) ≤
        rolledBack "firmware" info.version (.replaced "firmware" info.version :: s.guard.history) + 1
      rw [replaced_self, rolledBack_cons (by simp) (by simp)]
      omega
    · have := h.count version
      show replaced "firmware" version (.replaced "firmware" info.version :: s.guard.history) ≤
        rolledBack "firmware" version (.replaced "firmware" info.version :: s.guard.history) + 1
      rw [(hother hv).1, (hother hv).2]
      exact this
  · cases hb
    rw [hversion]
    by_cases hv : version = info.version
    · rw [hv, is_version_upgrade_irrefl]
    · exact is_version_upgrade_mono P.semver (h.outdated (hout hv ho)) h.upgrade
  · have hv : version ≠ info.version := fun hv => hne ((h.marked marker hm).trans hv.symm)
    obtain rfl : Contents.whole self = previous := Option.some.inj (h.backup.symm.trans hp)
    rw [← h.installed]
    exact h.bin version (hout hv ho)

theorem renameNew_counted (h : Primed P g self info bytes s)
    (hversion : P.kiosk_app_version bytes = info.version) :
    wp (Counted P g) (renameNew info.version) (fun _ => Counted P g) (fun _ => Working P g self info) s := by
  refine wp_op ?_ h.toWorking h.toCounted h.toCounted
  dsimp only
  rcases h.new with hn | hn
  · rw [hn]
    exact h.swap hversion
  · rw [hn]
    exact h.toWorking

/-- Every download is a binary of its version. -/
def Serves (P : Platform) (cancelable : Bool) (key : Option String) (info : UpdateInfo) (o : Outside) :
    Prop :=
  ∀ bytes, Sends cancelable key info o bytes → P.sha256 bytes = info.sha256 →
    P.kiosk_app_version bytes = info.version

theorem applyUpdate_counted (h : Working P g self info s)
    (hserves : ∀ o ∈ s.outside :: s.script, Serves P cancelable key info o) :
    wp (Counted P g) (applyUpdate P self cancelable key info) (fun _ => Counted P g)
    (fun _ => Working P g self info) s := by
  have hothers : ∀ {Q : Unit → World → Prop} {t : World}, Working P g self info t →
    (∀ u, Drift t u → Q () u) →
      wp (Counted P g) (others P self) Q (fun _ : String => Working P g self info) t := fun ht hQ =>
    (others_drift ht.usable fun u hu => (ht.drift hu).toCounted).mono (fun _ => hQ) (fun _ _ h => h)
      fun _ h => h
  refine wp_bind (fetch_wp.mono (fun bytes t ht => ?_) (fun _ _ ht => h.drift ht.drift) fun _ ht =>
    (h.drift ht.drift).toCounted)
  obtain ⟨ht, -, hsha, o, ho, hsends⟩ := ht
  have hversion : P.kiosk_app_version bytes = info.version := hserves o ho bytes hsends hsha
  refine wp_bind ((writeNew_counted (h.drift ht.drift)).mono (fun _ t h => ?_) (fun _ _ h => h) fun _ h => h)
  refine wp_bind (checkCancel_wp.mono (fun _ u hu => ?_) (fun _ _ hu => h.toWorking.drift hu.1.drift)
        fun _ hu =>
    (h.toCounted.drift hu.drift))
  have h := h.drift hu.drift
  refine wp_bind (hothers h.toWorking fun t ht => ?_)
  refine wp_bind (wp_bind ((stash_counted (h.drift ht)).mono (fun _ t h => ?_) (fun _ _ h => h) fun _ h => h))
  refine wp_bind (hothers h.toWorking fun u hu => ?_)
  refine (persist_counted (h.drift hu)).mono (fun _ t h => ?_) (fun _ _ h => h) fun _ h => h
  refine wp_bind (hothers h.toWorking fun u hu => ?_)
  refine wp_bind ((renameNew_counted (h.drift hu) hversion).mono (fun _ t h => ?_) (fun _ _ h => h)
    fun _ h => h)
  exact (others_drift h.usable fun u hu => h.drift hu).mono (fun _ _ hu => h.drift hu)
    (fun _ _ h => h) fun _ h => h

end Pass

/-! ### A process of the app -/

/-- The condition on a pass of the running app: the candidate of a version has been taken back fewer
than three times since that version last succeeded, and the server serves binaries of the version.
-/
def Takes (P : Platform) (s : World) (cancelable : Bool) (key : Option String) (check : CheckResponse)
    (env : Env) :
    Prop :=
  ∀ app info, s.running = some app → newer_update P app check = some info →
    rolledBack "firmware" info.version s.guard.history < ATTEMPT_LIMIT ∧
      ∀ o ∈ s.outside :: env.script, Serves P cancelable key info o

/-- The update that a pass takes up is one that it may. -/
def Fits (P : Platform) (s : World) : Action → Prop
  | .worker check key _ env => Takes P s true (some key) check env
  | .preboot check env => Takes P s false none check env
  | _ => True

/-- The attempt file can be used. -/
def Action.usable : Action → Bool
  | .worker _ _ _ env => env.usable
  | .preboot _ env => env.usable
  | .confirm env => env.usable
  | .start env => env.usable
  | .die => true

/-- A process runs the executable that is installed. -/
structure Live (P : Platform) (g : Guard) (s : World) : Prop extends Counted P g s where
  running : ∀ bytes, s.running = some bytes → s.bin = .whole bytes

section Process

variable {P : Platform} {g : Guard} {self : Bytes} {info : UpdateInfo} {check : CheckResponse} {key : String}
  {s t : World} {ε : Type}

theorem Live.drift (h : Live P g s) (hd : Drift s t) : Live P g t :=
  ⟨h.toCounted.drift hd, by rw [hd.running, hd.bin]; exact h.running⟩

theorem Working.live (h : Working P g self info s) : Live P g s := by
  refine ⟨h.toCounted, fun bytes hr => ?_⟩
  rw [h.running] at hr
  cases hr
  exact h.installed

theorem Counted.dead (h : Counted P g s) : Live P g { s with running := none } :=
  ⟨h.congr rfl rfl rfl rfl, fun _ hr => by cases hr⟩

/-- What a program of the process leaves behind, which exits if it returns `true`. -/
def Left (P : Platform) (g : Guard) (exits : Bool) (s : World) : Prop :=
  Counted P g s ∧ (exits = false → Live P g s)

theorem Live.left (h : Live P g s) (exits : Bool) : Left P g exits s := ⟨h.toCounted, fun _ => h⟩

/-- The pass of an app that finds an upgrade. -/
theorem Live.working {cancelable : Bool} {key : Option String} {env : Env} (h : Live P g s)
    (hrun : s.running = some self)
    (htakes : Takes P s cancelable key check env) (hinfo : newer_update P self check = some info) :
    Working P g self info s ∧ ∀ o ∈ s.outside :: env.script, Serves P cancelable key info o := by
  obtain ⟨hfew, hserves⟩ := htakes self info hrun hinfo
  refine ⟨⟨h.toCounted, hrun, h.running self hrun, ?_, hfew⟩, hserves⟩
  unfold newer_update at hinfo
  split at hinfo
  · cases hinfo
  · exact (Option.filter_eq_some_iff.1 hinfo).2

theorem applyExits_counted {cancelable : Bool} {key : Option String} (h : Working P g self info s)
    (hserves : ∀ o ∈ s.outside :: s.script, Serves P cancelable key info o) :
    wp (Counted P g) (do applyUpdate P self cancelable key info; return true : Prog String World Bool)
      (Left P g) (fun _ => Live P g) s :=
  wp_bind ((applyUpdate_counted h hserves).mono (fun _ _ h => wp_pure ⟨h, fun hf => by cases hf⟩)
    (fun _ _ h => h.live) fun _ h => h)

theorem attempt_counted {force : Bool} (h : Working P g self info s)
    (hserves : ∀ o ∈ s.outside :: s.script, Serves P true (some key) info o) :
    wp (Counted P g) (attempt P self info key force) (Left P g) (fun _ => Live P g) s := by
  refine wp_bind (wp_zoom (wp_blocked h.usable (fun n _ => ?_) h.toCounted))
  split
  · exact wp_pure (h.live.left _)
  refine wp_bind (wp_look (fun o t ht => ?_) h.toCounted)
  have hw := h.drift ht.drift
  split
  · exact wp_pure (hw.live.left _)
  · exact applyExits_counted hw fun o' ho' => hserves o' (ht.moments o' ho')

theorem worker_counted {force : Bool} {E : ε → World → Prop} (h : Live P g s)
    (hworks : ∀ info, newer_update P self check = some info → Working P g self info s ∧
      ∀ o ∈ s.outside :: s.script, Serves P true (some key) info o) :
    wp (Counted P g) (run_firmware_update_worker P self check key force) (Left P g) E s := by
  unfold run_firmware_update_worker
  split
  · exact wp_pure (h.left _)
  next info hinfo =>
  obtain ⟨hworking, hserves⟩ := hworks info hinfo
  refine wp_orElse ((attempt_counted hworking hserves).mono (fun _ _ h => h) (fun error t h => ?_)
    fun _ h => h)
  split
  · exact wp_pure (h.left _)
  · refine wp_bind (wp_zoom (wp_record_failure h.usable h.toCounted fun stored => ?_))
    -- a failure changes the count of the file, not the history
    have hfailed : Live P g { t with
        guard := { t.guard with state := addFailure t.guard.state "firmware" info.version stored } } :=
      ⟨⟨h.usable, h.only.trans .addFailure, h.limited, h.count, h.bin, h.prev⟩, h.running⟩
    exact ⟨hfailed.toCounted, fun _ => wp_pure (hfailed.left _)⟩

theorem preboot_counted {E : ε → World → Prop} (h : Live P g s)
    (hworks : ∀ info, newer_update P self check = some info → Working P g self info s ∧
      ∀ o ∈ s.outside :: s.script, Serves P false none info o) :
    wp (Counted P g) (prebootUpdate P self check) (Left P g) E s := by
  have hlive : ∀ {t : World}, Drift s t → Live P g t := fun ht => h.drift ht
  have hattempt : wp (Counted P g) (prebootAttempt P self check) (Left P g) (fun _ => Live P g) s := by
    refine wp_bind (wp_look (fun o t ht => ?_) h.toCounted)
    split
    · exact wp_pure ((hlive ht.drift).left _)
    split
    · exact wp_pure ((hlive ht.drift).left _)
    next info hinfo =>
    obtain ⟨hworking, hserves⟩ := hworks info hinfo
    refine wp_bind (wp_look (fun o u hu => ?_) (hlive ht.drift).toCounted)
    have hu := ht.trans hu
    split
    · exact wp_pure ((hlive hu.drift).left _)
    · exact applyExits_counted (hworking.drift hu.drift) fun o' ho' => hserves o' (hu.moments o' ho')
  exact wp_orElse (hattempt.mono (fun _ _ h => h) (fun _ _ h => wp_pure (h.left _)) fun _ h => h)

end Process

/-! ### The script -/

/-- No process runs. -/
structure Halted (P : Platform) (g : Guard) (s : World) : Prop extends Counted P g s where
  running : s.running = none

section Script

variable {P : Platform} {g : Guard} {s t : World}

theorem Halted.drift (h : Halted P g s) (hd : Drift s t) : Halted P g t :=
  ⟨h.toCounted.drift hd, hd.running.trans h.running⟩

theorem Halted.live (h : Halted P g s) : Live P g s :=
  ⟨h.toCounted, fun bytes hr => by rw [h.running] at hr; cases hr⟩

theorem Halted.attempts (h : Halted P g s) (attempts : Option String) : Halted P g { s with attempts } :=
  h.drift ⟨rfl, rfl, .inl rfl, .inl rfl, rfl, .refl _⟩

theorem clear_bookkeeping_counted (h : Halted P g s) :
    wp (Halted P g) clear_bookkeeping (fun _ => Halted P g) (fun _ => Halted P g) s := by
  have hcleared : Halted P g { s with marker := none } := h.drift ⟨rfl, rfl, .inl rfl, .inr rfl, rfl, .refl _⟩
  refine wp_bind (wp_ignore (wp_write ?_ ?_ h))
  · exact wp_ignore (wp_write (hcleared.attempts none) hcleared hcleared)
  · exact wp_ignore (wp_write (h.attempts none) h h)

/-- The executable is the backup again. -/
theorem Counted.restored {marker : Marker} {previous : Contents} (h : Counted P g s)
    (hm : s.marker = some marker) (hp : s.prev = some previous) :
    Counted P g { s with
      bin := previous
      guard := { s.guard with history := .rolledBack "firmware" marker.version :: s.guard.history } } := by
  have hreplaced : ∀ version, replaced "firmware" version (.rolledBack "firmware" marker.version ::
    s.guard.history) =
      replaced "firmware" version s.guard.history := fun _ => replaced_cons (by simp) (by simp)
  have hback : ∀ {version}, version ≠ marker.version →
      rolledBack "firmware" version (.rolledBack "firmware" marker.version :: s.guard.history) =
        rolledBack "firmware" version s.guard.history :=
          fun hv => rolledBack_cons (by simp) (by simpa using Ne.symm hv)
  -- the version that is taken back is outstanding no more
  have hout : ∀ {version}, Outstanding version
      { s.guard with history := .rolledBack "firmware" marker.version :: s.guard.history } →
      version ≠ marker.version ∧ Outstanding version s.guard := fun {version} ho => by
    have hne : version ≠ marker.version := fun hv => by
      have hcount := h.count marker.version
      unfold Outstanding at ho
      rw [hreplaced, hv, rolledBack_self] at ho
      omega
    refine ⟨hne, ?_⟩
    unfold Outstanding at *
    rw [hreplaced, hback hne] at ho
    exact ho
  refine ⟨h.usable, h.only.trans (.mark (.inr rfl)), ⟨fun version hv => (by cases hv), h.limited⟩,
    fun version => ?_, fun version ho => ?_, fun version ho => h.prev version (hout ho).2⟩
  · have hcount := h.count version
    show replaced "firmware" version (.rolledBack "firmware" marker.version :: s.guard.history) ≤
      rolledBack "firmware" version (.rolledBack "firmware" marker.version :: s.guard.history) + 1
    rw [hreplaced]
    by_cases hv : version = marker.version
    · rw [hv, rolledBack_self]
      rw [hv] at hcount
      omega
    · rw [hback hv]
      exact hcount
  · obtain ⟨hne, ho⟩ := hout ho
    exact h.prev version ho marker previous hm hne.symm hp

theorem rollback_counted (h : Halted P g s) (hmarker : s.marker ≠ none) :
    wp (Halted P g) rollback (fun _ => Halted P g) (fun _ => Halted P g) s := by
  refine wp_bind (wp_get ?_ h)
  split
  swap
  · exact clear_bookkeeping_counted h
  next previous hp =>
  obtain ⟨marker, hm⟩ := Option.ne_none_iff_exists'.1 hmarker
  have htorn : Halted P g { s with bin := .torn } :=
    ⟨⟨h.usable, h.only, h.limited, h.count, fun _ _ _ hb => (by cases hb), h.prev⟩, h.running⟩
  have hmarks : (s.marker.map fun m => Mark.rolledBack "firmware" m.version).toList =
      [.rolledBack "firmware" marker.version] := by rw [hm]; rfl
  have hback : Halted P g { s with
      bin := previous
      guard := { s.guard with
        history := (s.marker.map fun m => .rolledBack "firmware" m.version).toList ++
            s.guard.history } } := by
    rw [hmarks]
    exact ⟨h.toCounted.restored hm hp, h.running⟩
  refine wp_bind (wp_bind (wp_write (wp_op ?_ htorn htorn htorn) h h))
  exact wp_bind (wp_write (clear_bookkeeping_counted hback) hback hback)

theorem touchMarker_counted {attempts : Nat} {E : Nat → World → Prop} (h : Halted P g s)
    (hmarker : s.marker ≠ none) :
    wp (Halted P g) (touchMarker attempts) (fun _ t => Halted P g t ∧ t.marker ≠ none) E s := by
  unfold touchMarker
  split
  · exact wp_pure ⟨h, hmarker⟩
  refine wp_orElse (wp_bind (wp_look (fun o t ht => ?_) h))
  have hmarker : t.marker ≠ none := by rw [ht.marker]; exact hmarker
  have ht := h.drift ht.drift
  obtain ⟨marker, hm⟩ := Option.ne_none_iff_exists'.1 hmarker
  have htouched : Halted P g { t with marker := t.marker.map fun m => { m with mtime := o.now } } := by
    refine ⟨⟨ht.usable, ht.only, ht.limited, ht.count, ht.bin,
      fun version ho marker' previous hm' hne hp => ?_⟩, ht.running⟩
    rw [hm] at hm'
    cases hm'
    exact ht.prev version ho marker previous hm hne hp
  refine wp_bind (wp_write (wp_pure ⟨htouched, ?_⟩) (wp_pure ⟨ht, hmarker⟩) ht)
  simp [hm]

theorem recordStart_counted {attempts : Nat} {E : Nat → World → Prop} (h : Halted P g s)
    (hmarker : s.marker ≠ none) :
    wp (Halted P g) (recordStart attempts) (fun _ t => Halted P g t ∧ t.marker ≠ none) E s := by
  refine wp_orElse (wp_bind (wp_write ?_ (wp_pure ⟨h, hmarker⟩) h))
  exact wp_bind (wp_write (wp_pure ⟨h.attempts _, hmarker⟩) (wp_pure ⟨h.attempts _, hmarker⟩) (h.attempts _))

theorem startCandidate_counted {attempts : Nat} (h : Halted P g s) (hmarker : s.marker ≠ none) :
    wp (Halted P g) (startCandidate attempts) (fun _ => Halted P g) (fun _ => Halted P g) s := by
  refine wp_bind (wp_read_or (fun mtime _ => ?_) h)
  refine wp_bind (wp_look (fun o t ht => ?_) h)
  have hmarker : t.marker ≠ none := by rw [ht.marker]; exact hmarker
  have h := h.drift ht.drift
  split
  · exact rollback_counted h hmarker
  split
  · exact rollback_counted h hmarker
  refine wp_bind ((recordStart_counted h hmarker).mono (fun recorded t h => ?_) (fun _ _ h => h) fun _ h => h)
  split
  · exact wp_pure h.1
  · exact rollback_counted h.1 h.2

theorem rollbackScript_counted (h : Halted P g s) :
    wp (Halted P g) rollbackScript (fun _ => Halted P g) (fun _ => Halted P g) s := by
  refine wp_bind (wp_get ?_ h)
  split
  · exact clear_bookkeeping_counted h
  next marker hm =>
  refine wp_bind (wp_read_or (fun text _ => ?_) h)
  refine wp_bind ((touchMarker_counted h (by rw [hm]; simp)).mono (fun touched t h => ?_)
    (fun _ _ h => h) fun _ h => h)
  split
  · exact startCandidate_counted h.1 h.2
  · exact rollback_counted h.1 h.2

end Script

/-! ### A step -/

section Step

variable {P : Platform} {s s' : World} {a : Action}

theorem Live.step (h : Live P s.guard s) (husable : a.usable = true) (hfits : Fits P s a)
    (hstep : step P s a = some s') : Live P s.guard s' := by
  have henter : ∀ env : Env, env.usable = true → Live P s.guard (s.enter env) := fun env hu => by
    have hguard : (s.enter env).guard = s.guard := by
      show { s.guard with usable := env.usable } = s.guard
      rw [hu, ← h.usable]
    exact ⟨h.toCounted.congr rfl rfl rfl hguard, h.running⟩
  cases a with
  | worker check key force env =>
    obtain ⟨self, hrun, rfl⟩ := Option.map_eq_some_iff.1 hstep
    refine settle_wp (C := Counted P s.guard) (fun _ ht => ht.dead) ?_
    exact worker_counted (henter env husable) fun info hinfo => (henter env husable).working hrun hfits hinfo
  | preboot check env =>
    obtain ⟨self, hrun, rfl⟩ := Option.map_eq_some_iff.1 hstep
    refine settle_wp (C := Counted P s.guard) (fun _ ht => ht.dead) ?_
    exact preboot_counted (henter env husable) fun info hinfo => (henter env husable).working hrun hfits hinfo
  | confirm env =>
    obtain ⟨self, hrun, rfl⟩ := Option.map_eq_some_iff.1 hstep
    have hlive := henter env husable
    refine settle_wp (C := Counted P s.guard) (fun _ ht => ht.dead) (wp_bind ((mark_drift hlive.usable).mono
      (fun _ t ht => wp_pure ?_) (fun _ t ht => hlive.drift ht) fun t ht => (hlive.drift ht).toCounted))
    exact (hlive.drift ht).left _
  | start env =>
    obtain rfl := Option.some.inj hstep
    have hhalted : Halted P s.guard { s.enter env with running := none } :=
      ⟨(henter env husable).toCounted.dead.toCounted, rfl⟩
    have := rollbackScript_counted hhalted env.plan
    unfold launch
    split
    · next t _ ht =>
      rw [ht] at this
      have ht : Halted P s.guard t := this
      split
      · next bytes hbytes =>
        refine ⟨ht.toCounted.congr rfl rfl rfl rfl, fun bytes' hr => ?_⟩
        cases hr
        exact hbytes
      · exact ht.live
    · next t _ ht => rw [ht] at this; exact Halted.live this
    · next t ht => rw [ht] at this; exact Halted.live this
  | die =>
    obtain rfl := Option.some.inj hstep
    exact h.toCounted.dead

end Step

/-! ### Deferred downloads -/

/-- No error of `x` is that of a deferred download. -/
def Undeferred {α : Type} (x : Prog String World α) : Prop :=
  ∀ s, wp (fun _ => True) x (fun _ _ => True) (fun e _ => is_deferred e = false) s

section Deferral

variable {P : Platform} {self : Bytes} {info : UpdateInfo} {cancelable : Bool} {key : Option String}
  {s : World}
  {α β : Type}

theorem Undeferred.bind {x : Prog String World α} {f : α → Prog String World β} (hx : Undeferred x)
    (hf : ∀ a, Undeferred (f a)) : Undeferred (x >>= f) := fun s =>
  wp_bind ((hx s).mono (fun a t _ => hf a t) (fun _ _ h => h) fun _ h => h)

theorem Undeferred.write {f : World → World} {e : String} (he : is_deferred e = false) :
    Undeferred (.write f e) := fun _ => wp_write trivial he trivial

theorem others_undeferred : Undeferred (others P self) := by
  have htimes : ∀ n, Undeferred (markTimes P self n) := by
    intro n
    induction n with
    | zero => exact fun _ => wp_pure trivial
    | succ n ih =>
      refine .bind (fun s => wp_orElse ?_) fun _ => ih
      exact (Keeps.wp (R := fun _ _ => True) (fun _ _ => trivial)) (fun _ _ _ => trivial)
        (fun _ _ _ => wp_pure trivial) fun _ _ => trivial
  exact fun s => wp_bind (wp_look (fun o t _ => htimes _ t) trivial)

theorem writeNew_undeferred {bytes : Bytes} : Undeferred (writeNew cancelable bytes) := by
  refine .bind (.write (by decide)) fun _ => .bind (fun s => ?_) fun _ => ?_
  · exact wp_op trivial (by decide : is_deferred "write: io error" = false) trivial trivial
  · split
    · exact fun s => wp_ignore (wp_write trivial trivial trivial)
    · exact .write (by decide)

theorem write_pending_marker_undeferred {version : String} :
    Undeferred (write_pending_marker P self version) := by
  refine .bind (.bind (fun s => ?_) fun _ => .write (by decide)) fun _ => .bind others_undeferred fun _ => ?_
  · exact wp_op trivial (by decide : is_deferred "stash previous app: io error" = false) trivial trivial
  · refine .bind (.write (by decide)) fun _ =>
      .bind (fun s => wp_look (fun _ _ _ => trivial) trivial) fun o => ?_
    exact .bind (.write (by decide)) fun _ => .bind (.write (by decide)) fun _ => .write (by decide)

theorem renameNew_undeferred {version : String} : Undeferred (renameNew version) := by
  refine fun s => wp_op ?_ (by decide : is_deferred "rename: io error" = false) trivial trivial
  dsimp only
  split
  · exact (by decide : is_deferred "rename: io error" = false)
  · trivial

/-- The download is deferred before the pass touches anything. -/
theorem applyUpdate_deferred :
    wp (fun _ => True) (applyUpdate P self cancelable key info) (fun _ _ => True)
      (fun e t => is_deferred e = true → t.guard = s.guard) s := by
  refine wp_bind (fetch_wp.mono (fun bytes t _ => ?_) (fun _ _ ht _ => ht.guard) fun _ _ => trivial)
  refine wp.mono (E := fun e _ => is_deferred e = false) ?_ (fun _ _ h => h)
    (fun e _ he hd => by rw [hd] at he; cases he) fun _ h => h
  refine Undeferred.bind writeNew_undeferred (fun _ => .bind ?_ fun _ =>
    .bind others_undeferred fun _ => ?_) t
  · exact fun s => checkCancel_wp.mono (fun _ _ _ => trivial) (fun _ _ h => h.2) fun _ _ => trivial
  · exact .bind write_pending_marker_undeferred fun _ => .bind others_undeferred fun _ =>
      .bind renameNew_undeferred fun _ => others_undeferred

theorem worker_deferred {ε : Type} {check : CheckResponse} {key : String} {force : Bool} {plan : List Fault}
    (hu : s.guard.usable = true) (hinfo : newer_update P self check = some info)
    (hd : Deferred (attempt P self info key force s plan) = true) :
    ((run_firmware_update_worker P self check key force : Prog ε World Bool) s plan).world.guard =
    s.guard := by
  have hattempt : wp (fun _ => True) (attempt P self info key force) (fun _ _ => True)
      (fun e t => is_deferred e = true → t.guard = s.guard) s := by
    refine wp_bind (wp_zoom (wp_blocked hu (fun n _ => ?_) trivial))
    split
    · exact wp_pure trivial
    refine wp_bind (wp_look (fun o t ht => ?_) trivial)
    split
    · exact wp_pure trivial
    · refine wp_bind (applyUpdate_deferred.mono (fun _ _ _ => wp_pure trivial) (fun _ _ h hd => ?_)
        fun _ h => h)
      exact (h hd).trans ht.guard
  have := hattempt plan
  unfold run_firmware_update_worker
  simp only [hinfo, Prog.orElse]
  rcases hx : attempt P self info key force s plan with ⟨a, t, plan'⟩ | ⟨e, t, plan'⟩ | t
  · rw [hx] at hd
    cases hd
  · rw [hx] at hd this
    have he : is_deferred e = true := hd
    simp only [he, if_true]
    exact this he
  · rw [hx] at hd
    cases hd

theorem preboot_deferred {ε : Type} {check : CheckResponse} {plan : List Fault}
    (hd : Deferred (prebootAttempt P self check s plan) = true) :
    ((prebootUpdate P self check : Prog ε World Bool) s plan).world.guard = s.guard := by
  have hattempt : wp (fun _ => True) (prebootAttempt P self check) (fun _ _ => True)
      (fun e t => is_deferred e = true → t.guard = s.guard) s := by
    refine wp_bind (wp_look (fun o t ht => ?_) trivial)
    split
    · exact wp_pure trivial
    split
    · exact wp_pure trivial
    refine wp_bind (wp_look (fun o u hu => ?_) trivial)
    split
    · exact wp_pure trivial
    · refine wp_bind (applyUpdate_deferred.mono (fun _ _ _ => wp_pure trivial) (fun _ _ h hd => ?_)
        fun _ h => h)
      exact (h hd).trans (ht.trans hu).guard
  have := hattempt plan
  unfold prebootUpdate
  simp only [Prog.orElse]
  rcases hx : prebootAttempt P self check s plan with ⟨a, t, plan'⟩ | ⟨e, t, plan'⟩ | t
  · rw [hx] at hd
    cases hd
  · rw [hx] at hd this
    exact this hd
  · rw [hx] at hd
    cases hd

end Deferral

end Firmware
