import BetterFrame.Lib.Run

/-!
# What the Android viewer shows and what it reports

The worker of a `ViewerSession`: `start`, `heartbeat`, `bundle`, `displayCookieIfDue`, `persist` and
`stop`, against any answers of the server and with writes of the protected store that may fail.
`bundle` changes the record in memory, then writes it, and only then emits a plan. The bundle is its
text; `version` reads it and `renderPlan` is the native core's.
-/

namespace AndroidViewer

open Machine

/-- What the native core makes of a bundle: a plan, a plan with an error, or nothing that can be read. -/
inductive Plan where
  | plan
  | error
  | unreadable
deriving DecidableEq

/-- The native core: the version of a bundle and the plan that is made of it. -/
structure Core where
  version : String → String
  renderPlan : String → Plan

/-- The part of the session's record that is about the bundle. `viewer` is that `bundle_profile` is
the viewer's. -/
structure Record where
  bundle : Option String
  bundle_version : String
  etag : String
  viewer : Bool
  blocked : Bool

def Record.empty : Record := ⟨none, "", "", false, false⟩

/-- The record after `bundle` received a bundle. -/
def Record.holding (core : Core) (r : Record) (raw etag : String) : Record :=
  { r with bundle := some raw, bundle_version := core.version raw, etag, viewer := true, blocked := false }

/-- Where the worker is in a tick: `heartbeat` returned true, `bundle` has returned. -/
inductive Phase where
  | idle
  | verified
  | returned
deriving DecidableEq

/-- `snapshot` is the bundle the render snapshot was built from, `served` the bundles that were
received, each with the ETag it came with. -/
structure Session where
  running : Bool
  state : Record
  store : Record
  profileVerified : Bool
  dashboardSessionReady : Bool
  snapshot : Option String
  phase : Phase
  served : List (String × String)

/-- How the stored bundle is read when a session starts. -/
inductive StartResult where
  | unreadable
  | failed
  | ok

/-- The answers to a heartbeat, as far as the session tells them apart. -/
inductive HeartbeatAnswer where
  /-- No answer, or a status that is an error. -/
  | none
  | failed
  | rejected
  | viewer
  | otherProfile

/-- The answers to a request for the bundle. -/
inductive BundleAnswer where
  /-- No answer, an error, or a body that cannot be read. -/
  | failed
  | notModified
  | unassigned
  | rejected
  | bundle (raw etag : String)

/-- How the request for the dashboard cookie ends. -/
inductive CookieAnswer where
  | skipped
  | rejected
  | ready (ready : Bool)

namespace Session

/-- A process that has just begun, over a store that holds nothing or what an older app left there. -/
def init (store : Record) : Session :=
  ⟨false, .empty, { store with viewer := false }, false, false, none, .idle, []⟩

variable (core : Core) (s : Session)

/-- What the next heartbeat reports. -/
def reported : String := s.state.bundle_version

/-- The ETag the next bundle request sends. -/
def ifNoneMatch : Option String :=
  if s.state.etag ≠ "" ∧ s.state.bundle.isSome ∧ s.state.blocked = false then some s.state.etag else none

/-- Drops the bundle and what is shown of it. -/
def clearCachedBundle : Session :=
  { s with
    state := { s.state with bundle := none, bundle_version := "", etag := "", viewer := false }
    snapshot := none }

/-- `persist`, and what follows it unless it throws. -/
def persist (write : Bool) (next : Session → Session) : Session :=
  if write then next { s with store := s.state } else { s with phase := .idle }

/-- Blocks the display on disk, and then shows nothing. -/
def blockDisplay (write : Bool) (next : Session → Session) : Session :=
  { s with state := { s.state with blocked := true } }.persist write fun s =>
    next { s with profileVerified := false, snapshot := none, dashboardSessionReady := false }

/-- Shows the plan of the bundle that is held. -/
def emitPlan : Session :=
  if s.running = false ∨ s.state.blocked ∨ s.state.viewer = false then s
  else
    match s.state.bundle with
    | none => s
    | some raw => { s with snapshot := some raw }

def start : StartResult → Session
  | .unreadable => { s with running := false, phase := .idle }
  | result =>
    let s := { s with
        state := s.store, profileVerified := false, dashboardSessionReady := false, phase := .idle }
    let s := if s.state.viewer then s else s.clearCachedBundle
    match result with
    | .ok => { s with running := true, store := s.state }.emitPlan
    | _ => { s with running := false }

/-- The answer to a heartbeat. -/
def heartbeat (write : Bool) : HeartbeatAnswer → Session
  | .none => { s with phase := .idle }
  | .failed => { s with profileVerified := false, phase := .idle }
  | .rejected => { s with profileVerified := false }.blockDisplay write fun s => { s with phase := .idle }
  | .viewer => { s with profileVerified := true, phase := .verified }
  | .otherProfile =>
    { s with profileVerified := false }.clearCachedBundle.blockDisplay write fun s =>
      { s with phase := .idle }

/-- The answer to a request for the bundle. -/
def bundle (write : Bool) : BundleAnswer → Session
  | .failed => { s with phase := .idle }
  | .notModified => { s with phase := .returned }
  | .unassigned =>
    let s := s.clearCachedBundle
    { s with state := { s.state with blocked := false } }.persist write fun s => { s with phase := .returned }
  | .rejected => s.blockDisplay write fun s => { s with phase := .returned }
  | .bundle raw etag =>
    let s := { s with served := (raw, etag) :: s.served }
    match core.renderPlan raw with
    | .unreadable => { s with phase := .idle }
    | .error =>
      { s with state := s.state.holding core raw etag }.persist write fun s =>
        { s.emitPlan with phase := .returned }
    | .plan =>
      let changed := s.state.bundle ≠ some raw ∨ s.state.blocked
      { s with state := s.state.holding core raw etag }.persist write fun s =>
        { if changed then s.emitPlan else s with phase := .returned }

/-- The end of a tick. -/
def displayCookieIfDue (write : Bool) : CookieAnswer → Session
  | .skipped => { s with phase := .idle }
  | .rejected => s.blockDisplay write fun s => { s with phase := .idle }
  | .ready ready =>
    let wasReady := s.dashboardSessionReady
    let s := { s with dashboardSessionReady := ready, phase := .idle }
    if wasReady ≠ ready then s.emitPlan else s

/-- What happens to a session: each tick of the worker is one request and its answer. -/
inductive Step where
  | start (result : StartResult)
  | stop (saved : Bool)
  /-- The process ends and begins anew. -/
  | restart
  | heartbeat (answer : HeartbeatAnswer) (write : Bool)
  | bundle (answer : BundleAnswer) (write : Bool)
  | cookie (answer : CookieAnswer) (write : Bool)
  /-- Another `persist` of the worker, between ticks or before a heartbeat. After that of a
  discovery a plan is emitted. -/
  | persist (write emits : Bool)

def step : Step → Option Session
  | .start result => if s.running then none else some (s.start result)
  | .stop saved =>
    some { s with running := false, snapshot := none, phase := .idle, store := if saved then s.state
      else s.store }
  | .restart => some { init s.store with store := s.store, served := s.served }
  | .heartbeat answer write => if s.running ∧ s.phase = .idle then some (s.heartbeat write answer) else none
  | .bundle answer write =>
    if s.running ∧ s.phase = .verified then some (s.bundle core write answer) else none
  | .cookie answer write =>
    if s.running ∧ s.phase = .returned then some (s.displayCookieIfDue write answer) else none
  | .persist write emits =>
    if s.running ∧ s.phase = .idle then some (s.persist write fun s => if emits then s.emitPlan else s)
    else none

/-- The render snapshot was built from the bundle whose version is reported and whose ETag is sent. -/
structure Shows : Prop where
  snapshot : s.snapshot = s.state.bundle
  held : ∀ raw, s.state.bundle = some raw → s.reported = core.version raw ∧
    ∀ etag, s.ifNoneMatch = some etag → (raw, etag) ∈ s.served
  unheld : s.state.bundle = none → s.reported = "" ∧ s.ifNoneMatch = none

/-- Where a call of `bundle` has returned and the display is not blocked, what is shown is what is
reported. -/
def Agrees : Prop := s.phase = .returned → s.state.blocked = false → s.Shows core

/-- No call of `bundle` is told that the viewer's bundle is current, by a 304 or by that very
bundle, while another one or none is shown. -/
def Confirmed : Step → Prop
  | .bundle .notModified _ => s.state.blocked = false → s.snapshot = s.state.bundle
  | .bundle (.bundle raw _) write =>
    core.renderPlan raw = .plan → write → s.state.blocked = false → s.state.bundle = some raw →
      s.snapshot = some raw
  | _ => True

/-- A bundle that is received and then not written. -/
def LosesWrite : Step → Prop
  | .bundle (.bundle raw _) write => core.renderPlan raw ≠ .unreadable ∧ write = false
  | _ => False

/-! ### What every run keeps -/

/-- The version and the ETag are those of the bundle. -/
def Coherent (r : Record) (served : List (String × String)) : Prop :=
  (∀ raw, r.bundle = some raw → r.bundle_version = core.version raw ∧ (raw, r.etag) ∈ served) ∧
    (r.bundle = none → r.bundle_version = "" ∧ r.etag = "")

/-- What is held and what is stored has been served together, and nothing is shown while nothing
runs. -/
structure Inv : Prop where
  state : Coherent core s.state s.served
  /-- What is not the viewer's is dropped when it is loaded. -/
  store : s.store.viewer → Coherent core s.store s.served
  viewer : s.state.bundle.isSome → s.state.viewer
  hidden : s.running = false → s.snapshot = none

variable {core s} {served : List (String × String)} {r : Record}

theorem Coherent.mono {p : String × String} (h : Coherent core r served) : Coherent core r (p :: served) :=
  ⟨fun raw hraw => ⟨(h.1 raw hraw).1, List.mem_cons_of_mem _ (h.1 raw hraw).2⟩, h.2⟩

theorem Coherent.holding {raw etag : String} (hserved : (raw, etag) ∈ served) :
    Coherent core (r.holding core raw etag) served := by
  refine ⟨fun raw' hraw => ?_, fun h => nomatch h⟩
  obtain rfl : raw = raw' := Option.some.inj hraw
  exact ⟨rfl, hserved⟩

theorem shows_iff (h : s.Inv core) : s.Shows core ↔ s.snapshot = s.state.bundle := by
  refine ⟨Shows.snapshot, fun hs =>
    ⟨hs, fun raw hraw => ⟨(h.state.1 raw hraw).1, fun etag hetag => ?_⟩, fun hnone => ?_⟩⟩
  · unfold ifNoneMatch at hetag
    split at hetag
    · exact Option.some.inj hetag ▸ (h.state.1 raw hraw).2
    · cases hetag
  · refine ⟨(h.state.2 hnone).1, ?_⟩
    simp [ifNoneMatch, hnone]

theorem inv_init (store : Record) : (init store).Inv core where
  state := ⟨fun _ h => (nomatch h), fun _ => ⟨rfl, rfl⟩⟩
  store := by simp [init]
  viewer := by simp [init, Record.empty]
  hidden := fun _ => rfl

theorem inv_clearCachedBundle (h : s.Inv core) : s.clearCachedBundle.Inv core where
  state := ⟨fun _ h => (nomatch h), fun _ => ⟨rfl, rfl⟩⟩
  store := h.store
  viewer := by simp [clearCachedBundle]
  hidden := fun _ => rfl

theorem inv_persist {write : Bool} {next : Session → Session} (h : s.Inv core)
    (hnext : ∀ t : Session, t.Inv core → (next t).Inv core) : (s.persist write next).Inv core := by
  unfold persist
  split
  · exact hnext _ ⟨h.state, fun _ => h.state, h.viewer, h.hidden⟩
  · exact ⟨h.state, h.store, h.viewer, h.hidden⟩

theorem inv_blockDisplay {write : Bool} {next : Session → Session} (h : s.Inv core)
    (hnext : ∀ t : Session, t.Inv core → (next t).Inv core) : (s.blockDisplay write next).Inv core :=
  inv_persist ⟨h.state, h.store, h.viewer, h.hidden⟩ fun _ ht =>
    hnext _ ⟨ht.state, ht.store, ht.viewer, fun _ => rfl⟩

theorem inv_emitPlan (h : s.Inv core) : s.emitPlan.Inv core := by
  unfold emitPlan
  split
  · exact h
  · next hrunning =>
    split
    · exact h
    · exact ⟨h.state, h.store, h.viewer, fun hr => absurd (.inl hr) hrunning⟩

theorem Inv.phase (h : s.Inv core) (phase : Phase) : Inv core { s with phase } :=
  ⟨h.state, h.store, h.viewer, h.hidden⟩

theorem inv_start (h : s.Inv core) (hrunning : s.running = false) (result : StartResult) :
    (s.start result).Inv core := by
  have hhidden := h.hidden hrunning
  -- the record as it is loaded
  have hloaded : ∀ t : Session, t.state = s.store → t.store = s.store → t.served = s.served →
    t.snapshot = none → (if t.state.viewer then t else t.clearCachedBundle).Inv core ∧
        (if t.state.viewer then t else t.clearCachedBundle).snapshot = none := by
    intro t hstate hstore hserved hsnapshot
    split
    · next hviewer =>
      refine ⟨⟨?_, fun hv => ?_, fun _ => hviewer, fun _ => hsnapshot⟩, hsnapshot⟩
      · rw [hstate, hserved]
        exact h.store (hstate ▸ hviewer)
      · rw [hstore, hserved]
        exact h.store (hstore ▸ hv)
    · refine ⟨⟨⟨fun _ h => (nomatch h), fun _ => ⟨rfl, rfl⟩⟩,
        fun hv => ?_, by simp [clearCachedBundle], fun _ => rfl⟩, rfl⟩
      rw [show t.clearCachedBundle.store = s.store from hstore,
        show t.clearCachedBundle.served = s.served from hserved]
      exact h.store (hstore ▸ hv)
  cases result with
  | unreadable => exact ⟨h.state, h.store, h.viewer, fun _ => hhidden⟩
  | failed =>
    obtain ⟨ht, hnone⟩ := hloaded { s with
        state := s.store, profileVerified := false, dashboardSessionReady := false, phase := .idle }
      rfl rfl rfl hhidden
    exact ⟨ht.state, ht.store, ht.viewer, fun _ => hnone⟩
  | ok =>
    obtain ⟨ht, -⟩ := hloaded { s with
        state := s.store, profileVerified := false, dashboardSessionReady := false, phase := .idle }
      rfl rfl rfl hhidden
    exact inv_emitPlan ⟨ht.state, fun _ => ht.state, ht.viewer, fun hr => nomatch hr⟩

theorem inv_heartbeat (h : s.Inv core) (write : Bool) (answer : HeartbeatAnswer) :
    (s.heartbeat write answer).Inv core := by
  have hunverified : Inv core { s with profileVerified := false } := ⟨h.state, h.store, h.viewer, h.hidden⟩
  cases answer with
  | none | failed | viewer => exact ⟨h.state, h.store, h.viewer, h.hidden⟩
  | rejected => exact inv_blockDisplay hunverified fun t ht => ht.phase _
  | otherProfile => exact inv_blockDisplay (inv_clearCachedBundle hunverified) fun t ht => ht.phase _

theorem inv_bundle (h : s.Inv core) (write : Bool) (answer : BundleAnswer) :
    (s.bundle core write answer).Inv core := by
  cases answer with
  | failed | notModified => exact h.phase _
  | unassigned =>
    have hcleared := inv_clearCachedBundle h
    have hunblocked : Inv core { s.clearCachedBundle with state :=
          { s.clearCachedBundle.state with blocked := false } } :=
      ⟨hcleared.state, hcleared.store, hcleared.viewer, hcleared.hidden⟩
    exact inv_persist hunblocked fun t ht => ht.phase _
  | rejected => exact inv_blockDisplay h fun t ht => ht.phase _
  | bundle raw etag =>
    have hstore : s.store.viewer → Coherent core s.store ((raw, etag) :: s.served) :=
      fun hv => (h.store hv).mono
    have hheld : Coherent core (s.state.holding core raw etag) ((raw, etag) :: s.served) :=
      .holding (List.mem_cons_self ..)
    simp only [bundle]
    split
    · exact ⟨h.state.mono, hstore, h.viewer, h.hidden⟩
    · exact inv_persist ⟨hheld, hstore, fun _ => rfl, h.hidden⟩ fun t ht => (inv_emitPlan ht).phase _
    · refine inv_persist ⟨hheld, hstore, fun _ => rfl, h.hidden⟩ fun t ht => ?_
      split
      · exact (inv_emitPlan ht).phase _
      · exact ht.phase _

theorem inv_cookie (h : s.Inv core) (write : Bool) (answer : CookieAnswer) :
    (s.displayCookieIfDue write answer).Inv core := by
  cases answer with
  | skipped => exact h.phase _
  | rejected => exact inv_blockDisplay h fun t ht => ht.phase _
  | ready ready =>
    have ht : Inv core { s with dashboardSessionReady := ready, phase := .idle } :=
      ⟨h.state, h.store, h.viewer, h.hidden⟩
    simp only [displayCookieIfDue]
    split
    · exact inv_emitPlan ht
    · exact ht

theorem inv_step {l : Step} {t : Session} (hs : step core s l = some t) (h : s.Inv core) : t.Inv core := by
  cases l with
  | start result =>
    obtain ⟨hrunning, rfl⟩ : s.running = false ∧ s.start result = t := by simpa [step] using hs
    exact inv_start h hrunning result
  | stop saved =>
    obtain rfl := Option.some.inj hs
    refine ⟨h.state, fun hv => ?_, h.viewer, fun _ => rfl⟩
    cases saved
    · exact h.store hv
    · exact h.state
  | restart =>
    obtain rfl := Option.some.inj hs
    exact ⟨⟨fun _ h => (nomatch h), fun _ => ⟨rfl, rfl⟩⟩, h.store, by simp [init, Record.empty], fun _ => rfl⟩
  | heartbeat answer write =>
    obtain ⟨-, rfl⟩ := by simpa only [step, Option.ite_none_right_eq_some, Option.some.injEq] using hs
    exact inv_heartbeat h write answer
  | bundle answer write =>
    obtain ⟨-, rfl⟩ := by simpa only [step, Option.ite_none_right_eq_some, Option.some.injEq] using hs
    exact inv_bundle h write answer
  | cookie answer write =>
    obtain ⟨-, rfl⟩ := by simpa only [step, Option.ite_none_right_eq_some, Option.some.injEq] using hs
    exact inv_cookie h write answer
  | persist write emits =>
    obtain ⟨-, rfl⟩ := by simpa only [step, Option.ite_none_right_eq_some, Option.some.injEq] using hs
    refine inv_persist h fun t ht => ?_
    split
    · exact inv_emitPlan ht
    · exact ht

/-! ### Where a call of `bundle` returns -/

theorem agrees_iff (h : s.Inv core) :
    s.Agrees core ↔ (s.phase = .returned → s.state.blocked = false → s.snapshot = s.state.bundle) :=
  forall₂_congr fun _ _ => shows_iff h

theorem emitPlan_phase : s.emitPlan.phase = s.phase := by
  unfold emitPlan
  split
  · rfl
  · split <;> rfl

theorem emitPlan_state : s.emitPlan.state = s.state := by
  unfold emitPlan
  split
  · rfl
  · split <;> rfl

/-- A plan of the held bundle is emitted where the session runs. -/
theorem emitPlan_shows {raw : String} (hrunning : s.running) (hunblocked : s.state.blocked = false)
    (hviewer : s.state.viewer)
    (hheld : s.state.bundle = some raw) : s.emitPlan.snapshot = some raw := by
  unfold emitPlan
  rw [if_neg (by simp [hrunning, hunblocked, hviewer]), hheld]

theorem persist_phase {write : Bool} {next : Session → Session} (hnext : ∀ t, (next t).phase ≠ .returned) :
    (s.persist write next).phase ≠ .returned := by
  unfold persist
  split
  · exact hnext _
  · simp

theorem start_phase (result : StartResult) : (s.start result).phase ≠ .returned := by
  cases result with
  | unreadable => simp [start]
  | failed =>
    simp only [start]
    split <;> simp [clearCachedBundle]
  | ok =>
    simp only [start, emitPlan_phase]
    split <;> simp [clearCachedBundle]

theorem heartbeat_phase (write : Bool) (answer : HeartbeatAnswer) :
    (s.heartbeat write answer).phase ≠ .returned := by
  cases answer with
  | rejected | otherProfile => exact persist_phase (by simp)
  | _ => simp [heartbeat]

theorem cookie_phase (write : Bool) (answer : CookieAnswer) :
    (s.displayCookieIfDue write answer).phase ≠ .returned := by
  cases answer with
  | skipped => simp [displayCookieIfDue]
  | rejected => exact persist_phase (by simp)
  | ready ready =>
    simp only [displayCookieIfDue]
    split <;> simp [emitPlan_phase]

/-- After a call of `bundle` the display agrees exactly if the call was not told that something not
shown is current. -/
theorem bundle_agrees (h : s.Inv core) (hrunning : s.running) (answer : BundleAnswer) (write : Bool) :
    (s.bundle core write answer).Agrees core ↔ Confirmed core s (.bundle answer write) := by
  rw [agrees_iff (inv_bundle h write answer)]
  cases answer with
  | failed => simp [bundle, Confirmed]
  | notModified => simp [bundle, Confirmed]
  | unassigned => cases write <;> simp [bundle, persist, clearCachedBundle, Confirmed]
  | rejected => cases write <;> simp [bundle, blockDisplay, persist, Confirmed]
  | bundle raw etag =>
    cases write with
    | false => cases hplan : core.renderPlan raw <;> simp [bundle, persist, Confirmed, hplan]
    | true =>
      cases hplan : core.renderPlan raw with
      | unreadable => simp [bundle, Confirmed, hplan]
      | error =>
        have hemits := @emitPlan_shows { s with
          served := (raw, etag) :: s.served, state := s.state.holding core raw etag,
          store := s.state.holding core raw etag }
          raw hrunning rfl rfl rfl
        simp only [bundle, persist, hplan, if_true, Confirmed, reduceCtorEq, false_implies, iff_true]
        exact fun _ _ => hemits.trans (by rw [emitPlan_state]; rfl)
      | plan =>
        have hemits := @emitPlan_shows { s with
          served := (raw, etag) :: s.served, state := s.state.holding core raw etag,
          store := s.state.holding core raw etag }
          raw hrunning rfl rfl rfl
        simp only [bundle, persist, hplan, if_true, Confirmed, true_implies]
        split
        · next hchanged =>
          constructor
          · intro _ hunblocked hheld
            simp [hunblocked, hheld] at hchanged
          · exact fun _ _ => hemits.trans (by rw [emitPlan_state]; rfl)
        · next hsame =>
          simp only [not_or, ne_eq, not_not, Bool.not_eq_true] at hsame
          constructor
          · exact fun hagrees _ _ => hagrees rfl
          · exact fun hconfirmed _ => hconfirmed hsame.2 hsame.1

/-- A step ends in agreement exactly if it is not a call of `bundle` that is told that something not
shown is current. -/
theorem step_agrees {l : Step} {t : Session} (h : s.Inv core) (hs : step core s l = some t) :
    t.Agrees core ↔ Confirmed core s l := by
  have hother : t.phase ≠ .returned → t.Agrees core := fun hne hphase => absurd hphase hne
  cases l with
  | start result =>
    obtain ⟨-, rfl⟩ : s.running = false ∧ s.start result = t := by simpa [step] using hs
    exact iff_of_true (hother (start_phase result)) trivial
  | stop saved =>
    obtain rfl := Option.some.inj hs
    exact iff_of_true (hother (by simp)) trivial
  | restart =>
    obtain rfl := Option.some.inj hs
    exact iff_of_true (hother (by simp [init])) trivial
  | heartbeat answer write =>
    obtain ⟨-, rfl⟩ := by simpa only [step, Option.ite_none_right_eq_some, Option.some.injEq] using hs
    exact iff_of_true (hother (heartbeat_phase write answer)) trivial
  | bundle answer write =>
    obtain ⟨hgo, rfl⟩ := by simpa only [step, Option.ite_none_right_eq_some, Option.some.injEq] using hs
    exact bundle_agrees h hgo.1 answer write
  | cookie answer write =>
    obtain ⟨-, rfl⟩ := by simpa only [step, Option.ite_none_right_eq_some, Option.some.injEq] using hs
    exact iff_of_true (hother (cookie_phase write answer)) trivial
  | persist write emits =>
    obtain ⟨hgo, rfl⟩ := by simpa only [step, Option.ite_none_right_eq_some, Option.some.injEq] using hs
    refine iff_of_true (hother ?_) trivial
    cases write
    · simp [persist]
    · cases emits <;> simp [persist, emitPlan_phase, hgo.2]

/-! ### How the shown bundle falls behind -/

/-- A running, unblocked display shows something else than the bundle it holds. -/
def Lost (s : Session) : Prop := s.running ∧ s.state.blocked = false ∧ s.snapshot ≠ s.state.bundle

/-- An emitted plan is of the bundle that is held. -/
theorem lost_emitPlan (hl : s.emitPlan.Lost) : s.Lost := by
  unfold emitPlan at hl
  split at hl
  · exact hl
  · split at hl
    · exact hl
    · next raw hheld => exact absurd hheld.symm hl.2.2

theorem not_lost_blockDisplay {write : Bool} {next : Session → Session}
    (hnext : ∀ t : Session, t.state.blocked → (next t).state.blocked) :
    ¬ (s.blockDisplay write next).Lost := by
  rintro ⟨-, hunblocked, -⟩
  have hblocked : (s.blockDisplay write next).state.blocked := by
    unfold blockDisplay persist
    split
    · exact hnext _ rfl
    · rfl
  simp [hblocked] at hunblocked

/-- What is loaded from the store is emitted at once. -/
theorem not_lost_start (h : s.Inv core) (hrunning : s.running = false) (result : StartResult) :
    ¬ (s.start result).Lost := by
  have hhidden := h.hidden hrunning
  cases result with
  | unreadable | failed => exact fun hl => nomatch hl.1
  | ok =>
    simp only [start]
    split
    · next hviewer =>
      rintro ⟨-, hunblocked, hdiffer⟩
      rw [emitPlan_state] at hunblocked hdiffer
      cases hheld : s.store.bundle with
      | none =>
        refine hdiffer ?_
        simp [emitPlan, hheld, hhidden]
      | some raw => exact hdiffer ((emitPlan_shows rfl hunblocked hviewer hheld).trans hheld.symm)
    · rintro ⟨-, -, hdiffer⟩
      exact hdiffer (by simp [emitPlan, clearCachedBundle])

/-- A written bundle is shown, unless it is the one the record held, unblocked, before. -/
theorem lost_bundle (hrunning : s.running) {answer : BundleAnswer} {write : Bool}
    (hl : (s.bundle core write answer).Lost) :
    s.Lost ∨ LosesWrite core (.bundle answer write) := by
  cases answer with
  | failed | notModified => exact .inl hl
  | unassigned => cases write <;> exact absurd rfl hl.2.2
  | rejected => exact absurd hl (not_lost_blockDisplay fun _ ht => ht)
  | bundle raw etag =>
    cases hplan : core.renderPlan raw with
    | unreadable =>
      simp only [bundle, hplan] at hl
      exact .inl hl
    | error | plan =>
      cases write with
      | false => exact .inr ⟨by simp [hplan], rfl⟩
      | true =>
        have hemits := @emitPlan_shows { s with
          served := (raw, etag) :: s.served, state := s.state.holding core raw etag,
          store := s.state.holding core raw etag }
          raw hrunning rfl rfl rfl
        simp only [bundle, persist, hplan, if_true] at hl
        refine .inl ?_
        first
        | exact absurd (hemits.trans (by rw [emitPlan_state]; rfl)) hl.2.2
        | split at hl
          · exact absurd (hemits.trans (by rw [emitPlan_state]; rfl)) hl.2.2
          · next hsame =>
            simp only [not_or, ne_eq, not_not, Bool.not_eq_true] at hsame
            exact ⟨hrunning, hsame.2, fun heq => hl.2.2 (heq.trans hsame.1)⟩

theorem lost_step {l : Step} {t : Session} (h : s.Inv core) (hs : step core s l = some t) (hl : t.Lost) :
    s.Lost ∨ LosesWrite core l := by
  cases l with
  | start result =>
    obtain ⟨hrunning, rfl⟩ : s.running = false ∧ s.start result = t := by simpa [step] using hs
    exact absurd hl (not_lost_start h hrunning result)
  | stop saved | restart =>
    obtain rfl := Option.some.inj hs
    exact absurd hl.1 (by simp [init])
  | heartbeat answer write =>
    obtain ⟨-, rfl⟩ := by simpa only [step, Option.ite_none_right_eq_some, Option.some.injEq] using hs
    cases answer with
    | none | failed | viewer => exact .inl hl
    | rejected | otherProfile => exact absurd hl (not_lost_blockDisplay fun _ ht => ht)
  | bundle answer write =>
    obtain ⟨hgo, rfl⟩ := by simpa only [step, Option.ite_none_right_eq_some, Option.some.injEq] using hs
    exact lost_bundle hgo.1 hl
  | cookie answer write =>
    obtain ⟨-, rfl⟩ := by simpa only [step, Option.ite_none_right_eq_some, Option.some.injEq] using hs
    cases answer with
    | skipped => exact .inl hl
    | rejected => exact absurd hl (not_lost_blockDisplay fun _ ht => ht)
    | ready ready =>
      simp only [displayCookieIfDue] at hl
      split at hl
      · exact .inl (lost_emitPlan (s := { s with dashboardSessionReady := ready, phase := .idle }) hl)
      · exact .inl hl
  | persist write emits =>
    obtain ⟨-, rfl⟩ := by simpa only [step, Option.ite_none_right_eq_some, Option.some.injEq] using hs
    unfold persist at hl
    split at hl
    · split at hl
      · exact .inl (lost_emitPlan (s := { s with store := s.state }) hl)
      · exact .inl hl
    · exact .inl hl

/-! ### Runs -/

theorem confirmed_of_not_lost {l : Step} {t : Session} (hs : step core s l = some t) (hn : ¬ s.Lost) :
    Confirmed core s l := by
  cases l with
  | bundle answer write =>
    obtain ⟨hgo, -⟩ := by simpa only [step, Option.ite_none_right_eq_some, Option.some.injEq] using hs
    have hshown : s.state.blocked = false → s.snapshot = s.state.bundle := fun hunblocked =>
      by_contra fun hdiffer => hn ⟨hgo.1, hunblocked, hdiffer⟩
    cases answer with
    | notModified => exact hshown
    | bundle raw etag => exact fun _ _ hunblocked hheld => (hshown hunblocked).trans hheld
    | _ => trivial
  | _ => trivial

/-- In a run the viewer shows what it reports after every call of `bundle` that returned exactly if
no such call was told that something is current which is not shown; and none is where every bundle
that is received is written. -/
theorem shows_what_it_reports (core : Core) (store : Record) (ls : List Step) (s : Session)
    (hr : run (step core) (init store) ls = some s) :
    ((∀ before t, before <+: ls → run (step core) (init store) before = some t → t.Agrees core) ↔
      Along (step core) (Confirmed core) (init store) ls) ∧
    ((∀ l ∈ ls, ¬ LosesWrite core l) → Along (step core) (Confirmed core) (init store) ls) := by
  constructor
  · exact along_iff (J := Inv core) (fun _ _ _ hs h => inv_step hs h) (fun _ _ _ h _ hs =>
      step_agrees h hs) hr
      (inv_init store) (fun hphase => nomatch hphase)
  · intro hwritten
    refine Along.of_inv (I := fun s => s.Inv core ∧ ¬ s.Lost) ?_ (fun _ _ _ h hs =>
      confirmed_of_not_lost hs h.2)
      (along_labels hwritten) hr ⟨inv_init store, fun h => nomatch h.1⟩
    exact fun _ _ _ hl hs h => ⟨inv_step hs h.1, fun hlost => (lost_step h.1 hs hlost).elim h.2 hl⟩

/-- A bundle, and another that cannot be written; then the server says that nothing has changed. -/
def secondUnwritten : List Step :=
  [.start .ok, .heartbeat .viewer true, .bundle (.bundle "first" "e1") true, .cookie .skipped true,
    .heartbeat .viewer true, .bundle (.bundle "second" "e2") false, .heartbeat .viewer true,
      .bundle .notModified true]

def plainCore : Core := ⟨fun raw => raw ++ "-version", fun _ => .plan⟩

/-- The second bundle is reported and confirmed, and the first is on screen. -/
theorem secondUnwritten_differs : ∃ s, run (step plainCore) (init .empty) secondUnwritten = some s ∧
    s.reported = "second-version" ∧ s.ifNoneMatch = some "e2" ∧ s.snapshot = some "first" ∧
    ¬ s.Agrees plainCore := by
  have hrun : run (step plainCore) (init .empty) secondUnwritten = some _ := rfl
  refine ⟨_, hrun, rfl, rfl, rfl, fun h => ?_⟩
  exact absurd (h rfl rfl).snapshot (by decide)

/-- The same run with the write. -/
def secondWritten : List Step :=
  [.start .ok, .heartbeat .viewer true, .bundle (.bundle "first" "e1") true, .cookie .skipped true,
    .heartbeat .viewer true, .bundle (.bundle "second" "e2") true, .cookie .skipped true,
      .heartbeat .viewer true,
    .bundle .notModified true]

theorem shows_what_it_reports_written : ∃ s, run (step plainCore) (init .empty) secondWritten = some s ∧
    s.snapshot = some "second" ∧ s.Agrees plainCore := by
  have hrun : run (step plainCore) (init .empty) secondWritten = some _ := rfl
  refine ⟨_, hrun, rfl, (shows_what_it_reports plainCore .empty secondWritten _ hrun).1.2 ?_ _ _
    List.prefix_rfl hrun⟩
  refine ⟨trivial, trivial, ?_, trivial, trivial, ?_, trivial, trivial, fun _ => rfl, trivial⟩
  · exact fun _ _ _ hheld => nomatch hheld
  · exact fun _ _ _ hheld => absurd hheld (by decide)

end Session

end AndroidViewer
