import BetterFrame.Client.FirmwareSwaps
import BetterFrame.Client.OsUpdateJournal

/-!
# The attempt limit

The updates of the app and of the operating system share one attempt file. `Limit` is what the limit is
for: between two recorded successes of a version at most three passes replace anything, and a pass that
the server deferred counts for nothing. The updates of the operating system keep it by themselves, as
each attempt is counted before any work; a swap of the app is not counted, and keeps it only where
`Firmware.Fits` holds of every pass.
-/

namespace AttemptLimit

open Crash UpdateDownload UpdateGuard

/-- The parameters of the two updates. -/
structure Platform where
  app : Firmware.Platform
  os : OsUpdate.Platform

/-- The app's and the system's update on one device. -/
structure Device where
  app : Firmware.World
  os : OsUpdate.World
  /-- There is one attempt file. -/
  shared : os.guard = app.guard

/-- A step of either update. -/
inductive Action where
  | app (a : Firmware.Action)
  | os (a : OsUpdate.Action)

/-- The app does not outlive a boot. -/
def survivor (running : Option Firmware.Bytes) : OsUpdate.Action → Option Firmware.Bytes
  | .boot .. => none
  | _ => running

/-- Both updates go on with the attempt file that the other has left. -/
def step (P : Platform) (d : Device) : Action → Option Device
  | .app a => (Firmware.step P.app d.app a).map fun app => ⟨app, { d.os with guard := app.guard }, rfl⟩
  | .os a => (OsUpdate.step P.os d.os a).map fun os =>
      ⟨{ d.app with guard := os.guard, running := survivor d.app.running a }, os, rfl⟩

/-- A display whose app was confirmed and whose system has not been updated yet. -/
def init (first : Firmware.Bytes) (prev new : Option Firmware.Contents) (attempts : Option String)
    (running : Bool)
    (outside : Firmware.Outside) (boot : OsUpdate.Boot) (bundles : String → Option OsUpdate.Bytes)
    (outside' : OsUpdate.Outside) (state : AttemptState) : Device :=
  ⟨Firmware.init first prev new attempts ⟨state, true, []⟩ running outside,
    OsUpdate.init boot bundles ⟨state, true, []⟩ outside', rfl⟩

/-- The attempt file can be used, and a pass of the operating system is not forced. -/
def Action.automatic : Action → Bool
  | .app a => a.usable
  | .os a => a.automatic

/-- The passes of the app are within the condition on them. -/
def Fits (P : Platform) (d : Device) : Action → Prop
  | .app a => Firmware.Fits P.app d.app a
  | .os _ => True

/-- Every version has the same count. -/
def SameCounts (g g' : Guard) : Prop :=
  ∀ kind version, failures g'.state kind version = failures g.state kind version

/-- No version is put in place more often than the limit since its last success, and a pass that is
put off costs no attempt. -/
structure Limit (P : Platform) (d : Device) : Prop where
  /-- The history has the latest first. -/
  bounded : ∀ kind, kind = "os" ∨ kind = "firmware" → ∀ version newer marks older,
    d.app.guard.history = newer ++ marks ++ older → .success kind version ∉ marks →
      marks.count (.replaced kind version) ≤ ATTEMPT_LIMIT
  os_deferred : ∀ key info env, env.usable = true →
    Deferred (OsUpdate.apply P.os key info false (d.os.enter env) env.plan) = true →
      SameCounts d.os.guard (OsUpdate.apply P.os key info false (d.os.enter env) env.plan).world.guard
  os_public_deferred : ∀ info env, env.usable = true →
    Deferred (OsUpdate.apply_public P.os info (d.os.enter env) env.plan) = true →
      SameCounts d.os.guard (OsUpdate.apply_public P.os info (d.os.enter env) env.plan).world.guard
  app_deferred : ∀ app check info key force env, env.usable = true →
    Firmware.newer_update P.app app check = some info →
      Deferred (Firmware.attempt P.app app info key force (d.app.enter env) env.plan) = true →
        SameCounts d.app.guard ((Firmware.run_firmware_update_worker P.app app check key force :
          Prog Empty Firmware.World Bool) (d.app.enter env) env.plan).world.guard
  preboot_deferred : ∀ app check env,
    Deferred (Firmware.prebootAttempt P.app app check (d.app.enter env) env.plan) = true →
      SameCounts d.app.guard ((Firmware.prebootUpdate P.app app check :
        Prog Empty Firmware.World Bool) (d.app.enter env) env.plan).world.guard

/-- The invariants of both updates, over the attempt file they share. -/
structure Inv (P : Platform) (d : Device) : Prop where
  app : Firmware.Live P.app d.app.guard d.app
  os : OsUpdate.Inv P.os False True d.os.guard d.os

section Runs

variable {P : Platform} {d d' : Device} {a : Action}

theorem Inv.step (h : Inv P d) (hauto : a.automatic = true) (hfits : Fits P d a)
    (hstep : step P d a = some d') :
    Inv P d' := by
  cases a with
  | app a =>
    obtain ⟨app, happ, rfl⟩ := Option.map_eq_some_iff.1 hstep
    have hlive := h.app.step hauto hfits happ
    refine ⟨⟨hlive.toCounted.restart, hlive.running⟩, ?_⟩
    have honly : Only "firmware" d.os.guard app.guard := d.shared ▸ hlive.only
    have hcovers : Covers "os" app.guard := (h.os.covers trivial).only honly (by decide) fun _ _ => key_kinds
    exact ⟨h.os.lawful, h.os.fresh, h.os.boots, fun journal hj =>
      (h.os.journal journal hj).mono rfl rfl fun _ h => h,
      fun _ => hcovers, fun _ => .refl _ _⟩
  | os a =>
    obtain ⟨os, hos, rfl⟩ := Option.map_eq_some_iff.1 hstep
    have hinv := h.os.step (fun _ => hauto) (fun h => h.elim) hos
    have honly : Only "os" d.app.guard os.guard := d.shared ▸ hinv.only trivial
    have hcounted := h.app.toCounted.others honly (by decide)
    refine ⟨⟨hcounted.congr rfl rfl rfl rfl, fun bytes hr => h.app.running bytes ?_⟩, ?_⟩
    · cases a with
      | boot => cases hr
      | _ => exact hr
    · exact ⟨hinv.lawful, hinv.fresh, hinv.boots, hinv.journal, hinv.covers, fun _ => .refl _ _⟩

theorem Inv.limit (h : Inv P d) : Limit P d := by
  have henter : ∀ env : Firmware.Env, env.usable = true →
      (d.app.enter env).guard = d.app.guard := fun env hu => by
    show { d.app.guard with usable := env.usable } = d.app.guard
    rw [hu, ← h.app.usable]
  have hos : ∀ (x : Prog String OsUpdate.World Unit) (env : OsUpdate.Env), env.usable = true →
      wp (OsUpdate.Inv P.os False True d.os.guard) x (fun _ => OsUpdate.Inv P.os False True d.os.guard)
        (fun e t => OsUpdate.Inv P.os False True d.os.guard t ∧ (True → is_deferred e = true →
          ∀ kind version, failures t.guard.state kind version = failures (d.os.enter env).guard.state
            kind version))
        (d.os.enter env) →
      Deferred (x (d.os.enter env) env.plan) = true →
          SameCounts d.os.guard (x (d.os.enter env) env.plan).world.guard := by
    intro x env _ hx hd
    have := hx env.plan
    rcases hr : x (d.os.enter env) env.plan with ⟨a, t, plan⟩ | ⟨e, t, plan⟩ | t
    · rw [hr] at hd
      cases hd
    · rw [hr] at hd this
      exact this.2 trivial hd
    · rw [hr] at hd
      cases hd
  refine ⟨fun kind hkind version newer marks older hh hs => ?_, fun key info env hu => ?_,
    fun info env hu => ?_,
    fun app check info key force env hu hinfo hd kind version => ?_, fun app check env hd kind version => ?_⟩
  · have hlimited : Limited kind d.app.guard.history := by
      rcases hkind with rfl | rfl
      · exact d.shared ▸ (h.os.covers trivial).limited
      · exact h.app.limited
    rw [hh, List.append_assoc] at hlimited
    exact hlimited.suffix.count_le hs
  · exact hos _ env hu (OsUpdate.apply_tracked_wp (h.os.enter fun _ => hu) fun _ => rfl)
  · exact hos _ env hu (OsUpdate.apply_tracked_wp (h.os.enter fun _ => hu) fun _ => rfl)
  · rw [Firmware.worker_deferred ((congrArg Guard.usable (henter env hu)).trans h.app.usable) hinfo hd,
      henter env hu]
  · rw [Firmware.preboot_deferred hd]
    rfl

theorem Inv.init (P : Platform) (first : Firmware.Bytes) (prev new : Option Firmware.Contents)
    (attempts : Option String)
    (running : Bool) (outside : Firmware.Outside) (boot : OsUpdate.Boot)
    (bundles : String → Option OsUpdate.Bytes)
    (outside' : OsUpdate.Outside) (state : AttemptState) :
    Inv P (init first prev new attempts running outside boot bundles outside' state) := by
  refine ⟨⟨⟨rfl, .refl _ _, trivial, fun _ => Nat.zero_le _, fun _ ho => (by cases ho),
    fun _ ho => (by cases ho)⟩, ?_⟩, ?_⟩
  · intro bytes hr
    cases running
    · cases hr
    · cases hr
      rfl
  · exact OsUpdate.Inv.init P.os False True boot bundles ⟨state, true, []⟩ outside' fun _ =>
      ⟨rfl, trivial, fun _ => Nat.zero_le _⟩

/-- However passes, starts, boots, reports and crashes follow one another. -/
theorem attempts_limited (P : Platform) (first : Firmware.Bytes) (prev new : Option Firmware.Contents)
    (attempts : Option String) (running : Bool) (outside : Firmware.Outside) (boot : OsUpdate.Boot)
    (bundles : String → Option OsUpdate.Bytes) (outside' : OsUpdate.Outside) (state : AttemptState)
    (actions : List Action) (d : Device)
    (hrun : Machine.run (step P) (init first prev new attempts running outside boot bundles outside' state)
      actions = some d) (hauto : ∀ a ∈ actions, a.automatic = true)
    (hfits : Machine.Along (step P) (Fits P)
      (init first prev new attempts running outside boot bundles outside' state) actions) :
    Limit P d := by
  have hinv : Inv P d := (hfits.labels hauto).inv (fun _ _ _ hgood hstep h =>
    h.step hgood.1 hgood.2 hstep) hrun
    (Inv.init ..)
  exact hinv.limit

end Runs

def plainPlatform : Platform := ⟨Firmware.plainPlatform, OsUpdate.plainPlatform⟩

def plainInit : Device :=
  init [0] none none none true Firmware.plainOutside ⟨"a", "1"⟩ (fun _ => none) OsUpdate.plainOutside .empty

/-- An update of the app and one of the operating system, each of which succeeds. -/
def bothUpdates : List Action :=
  [.app (Firmware.offer "11"), .app (.start Firmware.plainEnv), .app (.confirm Firmware.plainEnv),
    .os OsUpdate.offer, .os (.boot "b" "11"), .os (.report OsUpdate.plainEnv)]

theorem attempts_limited_of_both :
    ∃ d, Machine.run (step plainPlatform) plainInit bothUpdates = some d ∧
      d.app.guard.history = [.success "os" "11", .replaced "os" "11", .success "firmware" "11",
      .replaced "firmware" "11"] ∧ Limit plainPlatform d := by
  obtain ⟨d, hrun, hhistory⟩ : ∃ d, Machine.run (step plainPlatform) plainInit bothUpdates = some d ∧
      d.app.guard.history =
        [.success "os" "11", .replaced "os" "11", .success "firmware" "11", .replaced "firmware" "11"] :=
    ⟨_, rfl, rfl⟩
  refine ⟨d, hrun, hhistory,
    attempts_limited plainPlatform [0] none none none true Firmware.plainOutside ⟨"a", "1"⟩
    (fun _ => none) OsUpdate.plainOutside .empty bothUpdates d hrun (by decide) ?_⟩
  refine ⟨fun app info hr hinfo => ?_, trivial, trivial, trivial, trivial, trivial, trivial⟩
  cases hr
  obtain rfl : Firmware.UpdateInfo.mk "11" "sha-2" "" 2 "/11" = info := Option.some.inj hinfo
  refine ⟨by decide, fun o ho bytes hsends _ => ?_⟩
  obtain rfl := List.mem_singleton.1 ho
  obtain ⟨response, hget, hread⟩ := hsends
  cases hget
  cases hread
  rfl

/-- The candidate of `11` is installed and taken back three times, and installed once more. -/
def installLoop : List Action :=
  (List.replicate 3 (.app (Firmware.offer "11") ::
    List.replicate 4 (.app (.start Firmware.plainEnv)))).flatten ++
    [.app (Firmware.offer "11")]

theorem attempts_unlimited_of_rollbacks :
    ∃ d, Machine.run (step plainPlatform) plainInit installLoop = some d ∧ ¬ Limit plainPlatform d := by
  have hloop : (Machine.run (step plainPlatform) plainInit installLoop).map (fun d => d.app.guard.history) =
      some [.replaced "firmware" "11", .rolledBack "firmware" "11", .replaced "firmware" "11",
        .rolledBack "firmware" "11", .replaced "firmware" "11", .rolledBack "firmware" "11",
        .replaced "firmware" "11"] := by decide +kernel
  obtain ⟨d, hrun, hhistory⟩ := Option.map_eq_some_iff.1 hloop
  refine ⟨d, hrun, fun h => ?_⟩
  have hcount := h.bounded "firmware" (.inr rfl) "11" [] d.app.guard.history [] (by simp)
    (by rw [hhistory]; decide)
  rw [hhistory] at hcount
  exact absurd hcount (by decide)

end AttemptLimit
