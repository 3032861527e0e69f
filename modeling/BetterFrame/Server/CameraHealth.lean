import BetterFrame.Lib.Run

/-!
# The camera health checker (shared/camera-health.ts)

A pass of `checkAll` reads the cameras once and then probes one after another; passes may overlap.
`one_event_iff` says in which runs every outage of a camera gives one `camera.offline` event.
-/

namespace CameraHealth

inductive CameraType where
  | rtsp
  | onvif
  | cloud
deriving DecidableEq

inductive StreamRole where
  | main
  | sub
  | other
deriving DecidableEq

structure Camera where
  id : String
  name : String
  type : CameraType
  rtsp_url : Option String
  onvif_host : Option String
  onvif_port : Option Nat
  enabled : Bool
  last_seen_at : Option Int
deriving DecidableEq

structure CameraStream where
  role : StreamRole
  rtsp_uri : String

structure CameraHealthConfig where
  intervalMs : Int

/-! ### Where a camera is probed -/

/-- `new URL`, its properties as the code reads them. -/
structure ParsedUrl where
  protocol : String
  hostname : String
  port : Option Nat
  pathname : String
  search : String
  username : String
  password : String

/-- The URL parser and `decodeURIComponent`. -/
structure Platform where
  url : String → Option ParsedUrl
  /-- `none` for a malformed sequence. -/
  decodeURIComponent : String → Option String

/-- What is read from an RTSP URL. -/
structure RtspParts where
  host : Option String
  port : Option Nat
  path : Option String
  username : Option String
  password : Option String

def nonempty (text : String) : Option String := if text = "" then none else some text

/-- Nothing could be read of the address. -/
def RtspParts.none : RtspParts := ⟨.none, .none, .none, .none, .none⟩

/-- The parts of an address, none of them when it does not parse. -/
def parseRtspUri (P : Platform) (raw : Option String) : RtspParts :=
  let parts : Option RtspParts := do
    let raw ← raw.bind nonempty
    let url ← P.url raw
    if url.protocol ≠ "rtsp:" then .none
    else
      let username ← match nonempty url.username with
        | .none => some .none
        | some username => (P.decodeURIComponent username).map some
      let password ← match nonempty url.password with
        | .none => some .none
        | some password => (P.decodeURIComponent password).map some
      some {
        host := nonempty url.hostname
        port := some (url.port.getD 554)
        path := some ((if url.pathname = "" then "/" else url.pathname) ++ url.search)
        username
        password }
  parts.getD .none

/-- The host and port that a pass probes, if the camera has a host. -/
def target (P : Platform) (cam : Camera) (listCameraStreams : String → List CameraStream) :
    Option (String × Nat) :=
  let streams := if cam.type = .rtsp then listCameraStreams cam.id else []
  let main := (streams.find? fun s => s.role = .main).or streams.head?
  let parsedRtsp := parseRtspUri P ((main.map (·.rtsp_uri)).or cam.rtsp_url)
  let host := if cam.type = .onvif then cam.onvif_host else parsedRtsp.host.or cam.onvif_host
  let port := if cam.type = .onvif then cam.onvif_port.getD 80
    else (parsedRtsp.port.or cam.onvif_port).getD 554
  (host.bind nonempty).map fun host => (host, port)

/-! ### Passes -/

/-- What happens in a run. A probe is noted with the time of its result and the `last_seen_at` that
its pass had read. -/
inductive Occurrence where
  | started (pass : Nat)
  | finished (pass : Nat)
  | probed (pass : Nat) (camera : String) (reachable : Bool) (now : Int) (last_seen_at : Option Int)
  | offline (camera : String)
deriving DecidableEq

/-- A pass with the row of the camera that it is probing and the rows it has still to probe. -/
structure Pass where
  number : Nat
  probing : Camera
  rest : List Camera

/-- The log has the newest occurrence first. -/
structure State where
  now : Int
  cameras : List Camera
  passes : List Pass
  count : Nat
  log : List Occurrence

variable (P : Platform) (listCameraStreams : String → List CameraStream) (cfg : CameraHealthConfig)

namespace State

variable (s : State)

/-- The pass of this number under way. -/
def pass (number : Nat) : Option Pass := s.passes.find? fun pass => pass.number = number

/-- The pass goes on with the next of its rows that has a host. -/
def resume (number : Nat) (cameras : List Camera) : State :=
  let others := s.passes.filter fun pass => pass.number ≠ number
  match cameras.dropWhile fun cam => (target P cam listCameraStreams).isNone with
  | [] => { s with passes := others, log := .finished number :: s.log }
  | cam :: rest => { s with passes := others ++ [⟨number, cam, rest⟩] }

/-- A pass over the cameras that are enabled as it starts. -/
def checkAll : State :=
  let number := s.count
  resume P listCameraStreams { s with count := s.count + 1, log := .started number :: s.log } number
    (s.cameras.filter (·.enabled))

/-- `updateCamera` of `last_seen_at`. -/
def updateCamera (id : String) (last_seen_at : Int) : State :=
  { s with cameras := s.cameras.map fun cam =>
    if cam.id = id then { cam with last_seen_at := some last_seen_at } else cam }

/-- The camera was seen less than three intervals ago, as far as the row says. -/
def wasOnline (now : Int) (last_seen_at : Option Int) : Bool :=
  last_seen_at.any fun seen => now - seen < cfg.intervalMs * 3

/-- The answer of a probe: the row and the events it leads to. -/
def probed (pass : Pass) (reachable : Bool) : State :=
  let cam := pass.probing
  let s := { s with log := .probed pass.number cam.id reachable s.now cam.last_seen_at :: s.log }
  let s :=
    if reachable then s.updateCamera cam.id s.now
    else if wasOnline cfg s.now cam.last_seen_at then { s with log := .offline cam.id :: s.log }
    else s
  s.resume P listCameraStreams pass.number pass.rest

end State

/-- Time passes, a round of passes begins, or a probe ends. -/
inductive Label where
  | wait (ms : Nat)
  | checkAll
  | probed (pass : Nat) (reachable : Bool)

def step (s : State) : Label → Option State
  | .wait ms => some { s with now := s.now + ms }
  | .checkAll => some (s.checkAll P listCameraStreams)
  | .probed number reachable =>
    (s.pass number).map fun pass => s.probed P listCameraStreams cfg pass reachable

/-! ### One outage, one event -/

/-- A probe of the camera that succeeded. -/
def Occurrence.reached (camera : String) : Occurrence → Bool
  | .probed _ id true _ _ => id = camera
  | _ => false

/-- What has happened since the camera was reached last. -/
def outage (camera : String) (log : List Occurrence) : List Occurrence :=
  log.takeWhile fun o => !o.reached camera

/-- The pass is the first to start after one that had reached the camera finished. -/
def Follows (camera : String) (number : Nat) (log : List Occurrence) : Prop :=
  ∃ later gap pass mid now seen before,
    log = later ++ .started number ::
      (gap ++ .finished pass :: (mid ++ .probed pass camera true now seen :: before)) ∧
      ∀ n, .started n ∉ gap

/-- The camera was not reached by a pass that follows one which reached it. -/
def Lost (camera : String) (log : List Occurrence) : Prop :=
  ∃ after number now seen before, log = after ++ .probed number camera false now seen :: before ∧
    (∀ o ∈ after, o.reached camera = false) ∧ Follows camera number before

/-- Between two successful probes there is one event at most, and there is one where the camera was lost. -/
structure OneEvent (s : State) : Prop where
  once : ∀ camera, (outage camera s.log).count (.offline camera) ≤ 1
  lost : ∀ camera, Lost camera s.log → .offline camera ∈ outage camera s.log

/-- It is less than three intervals since the camera was seen. -/
def Soon (now : Int) (seen : Option Int) : Prop := ∃ t, seen = some t ∧ now - t < cfg.intervalMs * 3

/-- A probe that failed less than three intervals after the `last_seen_at` its pass had read. -/
def Occurrence.recentMiss (camera : String) : Occurrence → Prop
  | .probed _ id false now seen => id = camera ∧ Soon cfg now seen
  | _ => False

/-- A failing probe is the first of its outage that fails within three intervals of the
`last_seen_at` its pass had read, or is later than that; and it is not later, or not the first, when
its pass follows one that reached the camera. -/
def Prompt (s : State) : Label → Prop
  | .probed number false => ∀ pass, s.pass number = some pass →
    let earlier := ∃ o ∈ outage pass.probing.id s.log, o.recentMiss cfg pass.probing.id
    (Soon cfg s.now pass.probing.last_seen_at → ¬ earlier) ∧
      (Follows pass.probing.id number s.log → Soon cfg s.now pass.probing.last_seen_at ∨ earlier)
  | _ => True

/-! ### What an occurrence changes for a camera -/

section Log

variable {cfg} {camera : String} {o : Occurrence} {log : List Occurrence} {number : Nat} {now : Int}
  {seen : Option Int}

theorem outage_cons (h : o.reached camera = false) : outage camera (o :: log) = o :: outage camera log := by
  simp [outage, h]

theorem outage_reached (h : o.reached camera = true) : outage camera (o :: log) = [] := by
  simp [outage, h]

/-- The state's conditions for one camera. -/
structure Fine (camera : String) (log : List Occurrence) : Prop where
  once : (outage camera log).count (.offline camera) ≤ 1
  lost : Lost camera log → .offline camera ∈ outage camera log

/-- There is an event in an outage exactly where a probe failed soon enough. -/
def Told (cfg : CameraHealthConfig) (camera : String) (log : List Occurrence) : Prop :=
  .offline camera ∈ outage camera log ↔ ∃ o ∈ outage camera log, o.recentMiss cfg camera

/-- Neither a probe of the camera nor its event. -/
structure Quiet (camera : String) (o : Occurrence) : Prop where
  reached : o.reached camera = false
  offline : o ≠ .offline camera
  missed : ∀ number now seen, o ≠ .probed number camera false now seen

theorem lost_cons (hreached : o.reached camera = false)
    (hmissed : ∀ number now seen, o ≠ .probed number camera false now seen) :
    Lost camera (o :: log) ↔ Lost camera log := by
  constructor
  · rintro ⟨after, number, now, seen, before, hlog, hafter, hfollows⟩
    cases after with
    | nil => exact absurd (List.cons.inj hlog).1 (hmissed _ _ _)
    | cons o' after =>
      obtain ⟨rfl, hrest⟩ := List.cons.inj hlog
      exact ⟨after, number, now, seen, before, hrest, fun x hx => hafter x (List.mem_cons_of_mem _ hx),
        hfollows⟩
  · rintro ⟨after, number, now, seen, before, rfl, hafter, hfollows⟩
    exact ⟨o :: after, number, now, seen, before, rfl, List.forall_mem_cons.2 ⟨hreached, hafter⟩, hfollows⟩

theorem Quiet.fine (h : Quiet camera o) : Fine camera (o :: log) ↔ Fine camera log := by
  have hmem : .offline camera ∈ outage camera (o :: log) ↔ .offline camera ∈ outage camera log := by
    rw [outage_cons h.reached, List.mem_cons, or_iff_right h.offline.symm]
  have hcount : (outage camera (o :: log)).count (.offline camera) = (outage camera log).count
      (.offline camera) := by
    rw [outage_cons h.reached, List.count_cons_of_ne h.offline]
  constructor
  · exact fun hf => ⟨hcount ▸ hf.once, fun hlost => hmem.1 (hf.lost ((lost_cons h.reached h.missed).2 hlost))⟩
  · exact fun hf => ⟨hcount ▸ hf.once, fun hlost => hmem.2 (hf.lost ((lost_cons h.reached h.missed).1 hlost))⟩

theorem Quiet.told (h : Quiet camera o) (ht : Told cfg camera log) : Told cfg camera (o :: log) := by
  have hrecent : ¬ o.recentMiss cfg camera := by
    cases o with
    | probed number id reachable now seen =>
      cases reachable with
      | true => exact fun hr => hr
      | false => exact fun hr => h.missed number now seen (by rw [hr.1])
    | _ => exact fun hr => hr
  unfold Told
  rw [outage_cons h.reached, List.mem_cons, or_iff_right h.offline.symm, List.exists_mem_cons_iff,
    or_iff_right hrecent]
  exact ht

theorem fine_reached (h : o.reached camera = true) : Fine camera (o :: log) := by
  refine ⟨by simp [outage_reached h], ?_⟩
  rintro ⟨after, number, now, seen, before, hlog, hafter, -⟩
  cases after with
  | nil =>
    obtain ⟨rfl, -⟩ := List.cons.inj hlog
    cases h
  | cons o' after =>
    obtain ⟨rfl, -⟩ := List.cons.inj hlog
    rw [hafter o List.mem_cons_self] at h
    cases h

theorem told_reached (h : o.reached camera = true) : Told cfg camera (o :: log) := by
  simp [Told, outage_reached h]

/-- A failed probe: the camera is lost now where its pass follows one that had reached it. -/
theorem lost_missed : Lost camera (.probed number camera false now seen :: log) ↔
    Follows camera number log ∨ Lost camera log := by
  constructor
  · rintro ⟨after, number', now', seen', before, hlog, hafter, hfollows⟩
    cases after with
    | nil =>
      obtain ⟨hhead, rfl⟩ := List.cons.inj hlog
      obtain ⟨rfl, -⟩ := Occurrence.probed.inj hhead
      exact .inl hfollows
    | cons o' after =>
      obtain ⟨rfl, hrest⟩ := List.cons.inj hlog
      exact .inr ⟨after, number', now', seen', before, hrest,
        fun x hx => hafter x (List.mem_cons_of_mem _ hx), hfollows⟩
  · rintro (hfollows | ⟨after, number', now', seen', before, rfl, hafter, hfollows⟩)
    · exact ⟨[], number, now, seen, log, rfl, fun _ hx => (nomatch hx), hfollows⟩
    · exact ⟨_ :: after, number', now', seen', before, rfl, List.forall_mem_cons.2 ⟨rfl, hafter⟩, hfollows⟩

/-- What a failed probe leaves in the log. -/
def missed (cfg : CameraHealthConfig) (camera : String) (number : Nat) (now : Int) (seen : Option Int)
    (log : List Occurrence) :
    List Occurrence :=
  if State.wasOnline cfg now seen then .offline camera :: .probed number camera false now seen :: log
  else .probed number camera false now seen :: log

theorem wasOnline_iff : State.wasOnline cfg now seen ↔ Soon cfg now seen := by
  rw [State.wasOnline, Option.any_eq_true, Soon]
  simp

theorem told_missed (h : Told cfg camera log) : Told cfg camera (missed cfg camera number now seen log) := by
  have hprobe : outage camera (.probed number camera false now seen :: log) = .probed number camera
      false now seen :: outage camera log :=
    outage_cons rfl
  unfold missed Told
  split
  · next hsoon =>
    rw [outage_cons rfl, hprobe]
    refine ⟨fun _ => ⟨_, List.mem_cons_of_mem _ List.mem_cons_self, rfl, wasOnline_iff.1 hsoon⟩,
      fun _ => List.mem_cons_self⟩
  · next hsoon =>
    have hnot : ¬ (Occurrence.probed number camera false now seen).recentMiss cfg camera := fun hr =>
      hsoon (wasOnline_iff.2 hr.2)
    rw [hprobe, List.mem_cons, or_iff_right (by simp), List.exists_mem_cons_iff, or_iff_right hnot]
    exact h

theorem fine_missed (ht : Told cfg camera log) (hf : Fine camera log) :
    Fine camera (missed cfg camera number now seen log) ↔
      (Soon cfg now seen → ¬ ∃ o ∈ outage camera log, o.recentMiss cfg camera) ∧
        (Follows camera number log → Soon cfg now seen ∨
          ∃ o ∈ outage camera log, o.recentMiss cfg camera) := by
  have hprobe : outage camera (.probed number camera false now seen :: log) = .probed number camera
      false now seen :: outage camera log :=
    outage_cons rfl
  have hcount : (outage camera (.probed number camera false now seen :: log)).count (.offline camera) =
      (outage camera log).count (.offline camera) := by
    rw [hprobe, List.count_cons_of_ne (by simp)]
  rw [← show _ ↔ _ from ht, ← wasOnline_iff]
  unfold missed
  split
  · next hsoon =>
    -- The event is the outage's only one when there was none before it.
    have hout : outage camera (.offline camera :: .probed number camera false now seen :: log) =
        .offline camera :: outage camera (.probed number camera false now seen :: log) := outage_cons rfl
    constructor
    · intro hfine
      have honce := hfine.once
      rw [hout, List.count_cons_self, hcount] at honce
      exact ⟨fun _ hmem => by have := List.count_pos_iff.2 hmem; omega, fun _ => .inl hsoon⟩
    · rintro ⟨hnone, -⟩
      have hzero := List.count_eq_zero.2 (hnone hsoon)
      exact ⟨by rw [hout, List.count_cons_self, hcount]; omega, fun _ => hout ▸ List.mem_cons_self⟩
  · next hsoon =>
    have hmem : .offline camera ∈ outage camera (.probed number camera false now seen :: log) ↔
        .offline camera ∈ outage camera log := by
      rw [hprobe, List.mem_cons, or_iff_right (by simp)]
    constructor
    · exact fun hfine => ⟨fun h => absurd h hsoon, fun hfollows =>
        .inr (hmem.1 (hfine.lost (lost_missed.2 (.inl hfollows))))⟩
    · rintro ⟨-, hfollows⟩
      refine ⟨hcount ▸ hf.once, fun hlost => hmem.2 ?_⟩
      rcases lost_missed.1 hlost with h | h
      · exact (hfollows h).resolve_left hsoon
      · exact hf.lost h

end Log

/-! ### Steps -/

variable {P listCameraStreams cfg} {s s' s₀ : State} {l : Label} {ls : List Label}

theorem resume_log (P : Platform) (listCameraStreams : String → List CameraStream) (s : State)
    (number : Nat) (cameras : List Camera) :
    (s.resume P listCameraStreams number cameras).log = s.log ∨
    (s.resume P listCameraStreams number cameras).log = .finished number :: s.log := by
  unfold State.resume
  dsimp only
  split
  · exact .inr rfl
  · exact .inl rfl

theorem quiet_started (camera : String) (number : Nat) : Quiet camera (.started number) :=
  ⟨rfl, by simp, by simp⟩

theorem quiet_finished (camera : String) (number : Nat) : Quiet camera (.finished number) :=
  ⟨rfl, by simp, by simp⟩

/-- Going on with a pass tells nothing about a camera. -/
theorem resume_fine {camera : String} (number : Nat) (cameras : List Camera) :
    Fine camera (s.resume P listCameraStreams number cameras).log ↔ Fine camera s.log := by
  rcases resume_log P listCameraStreams s number cameras with h | h
  · rw [h]
  · rw [h]
    exact (quiet_finished camera number).fine

theorem resume_told {camera : String} (number : Nat) (cameras : List Camera) (ht : Told cfg camera s.log) :
    Told cfg camera (s.resume P listCameraStreams number cameras).log := by
  rcases resume_log P listCameraStreams s number cameras with h | h
  · rw [h]
    exact ht
  · rw [h]
    exact (quiet_finished camera number).told ht

/-- What a probe's result leaves in the log. -/
def probedLog (cfg : CameraHealthConfig) (number : Nat) (camera : String) (reachable : Bool)
    (now : Int) (seen : Option Int) (log : List Occurrence) : List Occurrence :=
  if reachable then .probed number camera true now seen :: log else missed cfg camera number now seen log

theorem probed_log (P : Platform) (listCameraStreams : String → List CameraStream)
    (cfg : CameraHealthConfig) (s : State) (pass : Pass) (reachable : Bool) :
    ∃ t : State, s.probed P listCameraStreams cfg pass reachable = t.resume P listCameraStreams
    pass.number pass.rest ∧
      t.log = probedLog cfg pass.number pass.probing.id reachable s.now pass.probing.last_seen_at s.log := by
  refine ⟨_, rfl, ?_⟩
  unfold probedLog missed
  cases reachable with
  | true => rfl
  | false =>
    simp only [Bool.false_eq_true, if_false]
    split <;> rfl

/-- Other cameras are told nothing. -/
theorem other_fine {camera id : String} (hne : id ≠ camera) {number : Nat} {reachable : Bool}
    {now : Int} {seen : Option Int} {log : List Occurrence} :
    (Fine camera (probedLog cfg number id reachable now seen log) ↔ Fine camera log) ∧
      (Told cfg camera log → Told cfg camera (probedLog cfg number id reachable now seen log)) := by
  have hprobed (reachable : Bool) : Quiet camera (.probed number id reachable now seen) :=
    ⟨by cases reachable <;> simp [Occurrence.reached, hne], by simp, by simp [hne]⟩
  have hoffline : Quiet camera (.offline id) := ⟨rfl, by simpa using hne, by simp⟩
  unfold probedLog missed
  split
  · exact ⟨(hprobed true).fine, (hprobed true).told⟩
  split
  · exact ⟨hoffline.fine.trans (hprobed false).fine, fun h => hoffline.told ((hprobed false).told h)⟩
  · exact ⟨(hprobed false).fine, (hprobed false).told⟩

theorem probedLog_told {camera id : String} {number : Nat} {reachable : Bool} {now : Int}
    {seen : Option Int} {log : List Occurrence}
    (h : Told cfg camera log) : Told cfg camera (probedLog cfg number id reachable now seen log) := by
  by_cases hid : id = camera
  · subst hid
    unfold probedLog
    split
    · exact told_reached (by simp [Occurrence.reached])
    · exact told_missed h
  · exact (other_fine hid).2 h

theorem step_told (h : step P listCameraStreams cfg s l = some s') (ht : ∀ camera, Told cfg camera s.log) :
    ∀ camera, Told cfg camera s'.log := by
  intro camera
  cases l with
  | wait ms => exact Option.some.inj h ▸ ht camera
  | checkAll =>
    rw [← Option.some.inj h]
    exact resume_told _ _ ((quiet_started camera _).told (ht camera))
  | probed number reachable =>
    obtain ⟨pass, -, rfl⟩ := Option.map_eq_some_iff.1 h
    obtain ⟨t, hprobed, hlog⟩ := probed_log P listCameraStreams cfg s pass reachable
    rw [hprobed]
    refine resume_told _ _ ?_
    rw [hlog]
    exact probedLog_told (ht camera)

theorem pass_number {number : Nat} {pass : Pass} (h : s.pass number = some pass) : pass.number = number := by
  unfold State.pass at h
  simpa using List.find?_some h

/-- A step keeps every outage at one event exactly where it is prompt. -/
theorem step_fine (h : step P listCameraStreams cfg s l = some s') (ht : ∀ camera, Told cfg camera s.log)
    (hf : ∀ camera, Fine camera s.log) :
    (∀ camera, Fine camera s'.log) ↔ Prompt cfg s l := by
  cases l with
  | wait ms =>
    rw [← Option.some.inj h]
    exact iff_of_true hf trivial
  | checkAll =>
    rw [← Option.some.inj h]
    exact iff_of_true (fun camera => (resume_fine _ _).2 ((quiet_started camera _).fine.2 (hf camera)))
      trivial
  | probed number reachable =>
    obtain ⟨pass, hpass, rfl⟩ := Option.map_eq_some_iff.1 h
    obtain ⟨t, hprobed, hlog⟩ := probed_log P listCameraStreams cfg s pass reachable
    have hothers : ∀ camera, pass.probing.id ≠ camera → Fine camera t.log := fun camera hne => by
      rw [hlog]
      exact (other_fine hne).1.2 (hf camera)
    simp only [hprobed, resume_fine]
    cases reachable with
    | true =>
      refine iff_of_true (fun camera => ?_) trivial
      by_cases hid : pass.probing.id = camera
      · rw [hlog, probedLog, if_pos rfl]
        exact fine_reached (by simp [Occurrence.reached, hid])
      · exact hothers camera hid
    | false =>
      have hlog : t.log = missed cfg pass.probing.id pass.number s.now pass.probing.last_seen_at s.log := hlog
      obtain rfl := pass_number hpass
      constructor
      · intro hall pass' hpass'
        obtain rfl := Option.some.inj (hpass.symm.trans hpass')
        have hfine := hall pass.probing.id
        rw [hlog] at hfine
        exact (fine_missed (ht _) (hf _)).1 hfine
      · intro hprompt camera
        by_cases hid : pass.probing.id = camera
        · subst hid
          rw [hlog]
          exact (fine_missed (ht _) (hf _)).2 (hprompt pass hpass)
        · exact hothers camera hid

/-- In a run every outage has one event exactly where every failing probe is prompt. -/
theorem one_event_iff (h0 : s₀.log = []) (hrun : Machine.run (step P listCameraStreams cfg) s₀ ls = some s) :
    (∀ before t, before <+: ls → Machine.run (step P listCameraStreams cfg) s₀ before = some t → OneEvent t) ↔
      Machine.Along (step P listCameraStreams cfg) (Prompt cfg) s₀ ls := by
  have hfine (s : State) : OneEvent s ↔ ∀ camera, Fine camera s.log :=
    ⟨fun h camera => ⟨h.once camera, h.lost camera⟩,
      fun h => ⟨fun camera => (h camera).once, fun camera => (h camera).lost⟩⟩
  have hlost (camera : String) : ¬ Lost camera s₀.log := by
    rintro ⟨after, number, now, seen, before, hlog, -⟩
    rw [h0] at hlog
    simp at hlog
  refine Machine.along_iff (I := OneEvent) (J := fun s => ∀ camera, Told cfg camera s.log)
    (fun s l s' h ht => step_told h ht)
    (fun s l s' ht hi h => ?_) hrun (fun camera => ?_) ((hfine s₀).2 fun camera => ?_)
  · rw [hfine, step_fine h ht ((hfine s).1 hi)]
  · simp [Told, h0, outage]
  · exact ⟨by simp [h0, outage], fun h => absurd h (hlost camera)⟩

namespace Outage

/-- The URL of the one camera, and no escapes. -/
def platform : Platform where
  url raw := if raw = "rtsp://10.0.0.7/" then some ⟨"rtsp:", "10.0.0.7", none, "/", "", "", ""⟩ else none
  decodeURIComponent := some

def minutely : CameraHealthConfig := ⟨60000⟩

def start : State := ⟨0, [⟨"front", "Front", .rtsp, some "rtsp://10.0.0.7/", none, none, true, none⟩],
  [], 0, []⟩

/-- The camera is reached, and missed by the next pass. -/
def missedOnce : List Label := [.checkAll, .probed 0 true, .wait 60000, .checkAll, .probed 1 false]

/-- And by the one after it, two minutes after it was seen. -/
def missedTwice : List Label := missedOnce ++ [.wait 60000, .checkAll, .probed 2 false]

theorem one_event_iff_missedOnce :
    ∃ s, Machine.run (step platform (fun _ => []) minutely) start missedOnce = some s ∧
    ((∀ before t, before <+: missedOnce →
      Machine.run (step platform (fun _ => []) minutely) start before = some t → OneEvent t) ↔
      Machine.Along (step platform (fun _ => []) minutely) (Prompt minutely) start missedOnce) := by
  have hrun : (Machine.run (step platform (fun _ => []) minutely) start missedOnce).isSome := by
    decide +kernel
  obtain ⟨s, hs⟩ := Option.isSome_iff_exists.1 hrun
  exact ⟨s, hs, one_event_iff rfl hs⟩

/-- Both passes that miss the camera insert an event. -/
theorem two_events : ∃ s, Machine.run (step platform (fun _ => []) minutely) start missedTwice = some s ∧
    ¬ OneEvent s := by
  have hcount : (Machine.run (step platform (fun _ => []) minutely) start missedTwice).map
      (fun s => (outage "front" s.log).count (.offline "front")) = some 2 := by decide +kernel
  obtain ⟨s, hs, htwo⟩ := Option.map_eq_some_iff.1 hcount
  refine ⟨s, hs, fun hone => ?_⟩
  have honce := hone.once "front"
  omega

end Outage

end CameraHealth
