import BetterFrame.Lib.Run
import Mathlib.Data.List.Nodup
import Mathlib.Data.List.Perm.Basic

/-!
# Unpairing the Android viewer

`EnrollmentCleanup` and the lifecycle of `ViewerSession` (`start`, `persist`, `stop`, `close`,
`unpair`), each synchronized block, store operation and queued task as one step, for any number of
sessions of one installation. `unpair_final` says when an unpaired display stays unpaired.
-/

namespace AndroidReset

open Machine

abbrev Token := Nat

/-! ### Sessions -/

/-- The protected store's record. An identity, a pending enrolment and a bundle are known by how
many resets had been persisted when their pairing began. -/
structure Saved where
  marker : Option Token
  identity : Option Nat
  pending : Option Nat
  bundle : Option Nat

/-- A cleared store: only the marker of the reset that cleared it is left. -/
def Saved.cleared (token : Token) : Saved := ⟨some token, none, none, none⟩

/-- What a tick does to the state before it persists it. -/
inductive Update where
  | initiates
  | claims
  | finishes
  | fetches
  | forgets
  | selects

/-- A change that the worker makes to the store, after that many resets. -/
def Update.apply (resets : Nat) (state : Saved) : Update → Saved
  | .initiates => { state with pending := some resets }
  | .claims => { state with identity := state.pending }
  | .finishes => { state with pending := none }
  | .fetches => { state with bundle := state.identity }
  | .forgets => { state with bundle := none }
  | .selects => state

/-- What is queued on a session's worker. `start` queues a load, which checks for a reset and
persists in further steps. `write` is the second half of a `persist`, that of a tick where there is
no epoch. -/
inductive Task where
  | load (epoch : Nat)
  | check (epoch : Nat)
  | persist (epoch : Nat)
  | write (epoch : Option Nat)
  | save (saveSelection : Bool) (storageGeneration : Option Nat)
  | mark (token : Token)

/-- A later part of a task that has begun. -/
def Task.starts : Task → Bool
  | .check _ | .persist _ | .write _ => true
  | _ => false

/-- `loaded` is that the loop of ticks is scheduled, `during` the reset that was registered when the
state was read. -/
structure Session where
  running : Bool
  closed : Bool
  clearingEnrollment : Bool
  pendingStart : Bool
  generation : Nat
  activeEpoch : Nat
  storageGeneration : Option Nat
  state : Saved
  loaded : Bool
  queue : List Task
  during : Option Token

namespace Session

def fresh : Session := ⟨false, false, false, false, 0, 0, none, ⟨none, none, none, none⟩, false, [], none⟩

variable (s : Session)

/-- The worker is in the epoch that it was started for. -/
def active : Bool := s.running && s.generation = s.activeEpoch && !s.closed

/-- Nothing is queued on the worker of a closed session. -/
def enqueue (task : Task) : Session := { s with queue := if s.closed then s.queue else s.queue ++ [task] }

def start : Session :=
  if s.closed then s
  else if s.clearingEnrollment then { s with pendingStart := true }
  else if s.running then s
  else { s with running := true, generation := s.generation + 1 }.enqueue (.load (s.generation + 1))

def stop : Session :=
  { s with pendingStart := false, running := false, generation := s.generation + 1, loaded := false }.enqueue
    (.save (s.running && !s.clearingEnrollment) s.storageGeneration)

end Session

/-! ### The cleanup -/

/-- `serial` tells the listeners of a process apart. -/
structure Listener where
  session : Nat
  serial : Nat

/-- Where a job is: its first task is queued, clearing is posted, the sessions are being cleared,
its last task is queued. -/
inductive Phase where
  | queued
  | posted
  | clearing
  | finalizing
deriving DecidableEq

/-- `persisted` is the future, `owner` the session whose reset registered the job. -/
structure Job where
  token : Token
  persisted : Option Bool
  phase : Phase
  listeners : List Listener
  owner : Option Nat

/-- What is posted to the UI thread, for the epoch in which it was posted. -/
inductive UiTask where
  | resume (session epoch : Nat) (token : Token)
  | failed (session epoch : Nat)

def UiTask.session : UiTask → Nat
  | .resume session _ _ => session
  | .failed session _ => session

/-- `generation` and `token` are the version, `due` the calls of listeners that are posted.
`markers` are the markers that were persisted, `cleared` that the browser sessions were cleared
since the last. `called` are the listeners that were called, `fired` those of jobs whose clear
callback was, also where they joined since. -/
structure World where
  store : Saved
  generation : Nat
  token : Option Token
  job : Option Job
  sessions : Nat → Option Session
  ui : List UiTask
  due : List (Listener × Bool)
  markers : List Token
  cleared : Bool
  next : Nat
  called : List Nat
  fired : List Nat

namespace World

def init (store : Saved) : World := ⟨store, 0, none, none, fun _ => none, [], [], [], false, 0, [], []⟩

variable (w : World)

def put (i : Nat) (s : Session) : World :=
  { w with sessions := fun j => if j = i then some s else w.sessions j }

/-- `begin`, and whether it created the claim. -/
def begin (i : Nat) (token : Token) : World × Token × Bool :=
  match w.job with
  | some job => (w, job.token, false)
  | none =>
    ({ w with
      generation := w.generation + 1, token := some token, job := some ⟨token, none, .queued, [], some i⟩ },
      token, true)

/-- `read`, which adopts a marker once. -/
def read : World :=
  if w.store.marker.isSome ∧ w.job.isNone ∧ w.token ≠ w.store.marker then
    { w with generation := w.generation + 1, token := w.store.marker }
  else w

/-- Whether `writeIfIdle` writes. -/
def idle (generation : Option Nat) : Bool := w.job.isNone && generation = some w.generation

/-- The write of the marker has ended, which is noted once. -/
def persisted (token : Token) (ok : Bool) : World :=
  { w with job := w.job.map fun job =>
    if job.token = token then { job with persisted := job.persisted.or (some ok) } else job }

/-- The session waits for the job of the token, which has ended if there is none. -/
def request (i : Nat) (token : Token) : World :=
  let job := w.job.getD ⟨token, some true, .queued, [], none⟩
  { w with
    job := some { job with listeners := job.listeners ++ [⟨i, w.next⟩] }, next := w.next + 1
    fired := if job.phase = .finalizing then w.next :: w.fired else w.fired }

/-- The job is over, and its listeners are due. -/
def finish (job : Job) (success : Bool) : World :=
  { w with job := none, due := w.due ++ job.listeners.map (·, success) }

def setPhase (job : Job) (phase : Phase) : World := { w with job := some { job with phase } }

/-- A session asks for a reset: it stops, and marks the store unless another's job does. -/
def unpair (i : Nat) (s : Session) (token : Token) : World :=
  let (w, claimed, created) := w.begin i token
  let s := { s with clearingEnrollment := true }.stop
  (w.put i (if created then s.enqueue (.mark token) else s)).request i claimed

end World

/-! ### Steps -/

/-- `dies` is the process. `shows` and `answers` run one of the posted tasks and calls, `works` the
first task of a session's worker, `checks`, `clears`, `callsBack` and `finalizes` the steps of the
job. -/
inductive Label where
  | dies
  | opens (i : Nat)
  | starts (i : Nat)
  | stops (i : Nat)
  | closes (i : Nat)
  | unpairs (i : Nat) (token : Token)
  | works (i : Nat) (ok : Bool)
  | ticks (i : Nat) (update : Update)
  | shows (n : Nat)
  | answers (n : Nat)
  | checks (ok : Bool)
  | clears (ok : Bool)
  | callsBack (cleared : Bool)
  | finalizes (ok : Bool)

/-- The first task of a session's worker. `ok` is that the store can be read or written. -/
def work (w : World) (i : Nat) (s : Session) (ok : Bool) : Task → World
  | .load epoch =>
    if s.generation ≠ epoch ∨ s.running = false then w.put i s
    else
      let s := { s with activeEpoch := epoch }
      if ok then
        let w := w.read
        w.put i { s with
          storageGeneration := some w.generation, state := w.store, queue := .check epoch :: s.queue
          during := w.job.map (·.token), loaded := false }
      else { w.put i s with ui := w.ui ++ [.failed i epoch] }
  | .check epoch =>
    match (w.job.map (·.token)).or s.state.marker with
    | some token =>
      { w.put i { s with clearingEnrollment := true, running := false } with ui := w.ui ++
        [.resume i epoch token] }
    | none => w.put i { s with queue := .persist epoch :: s.queue }
  | .persist epoch =>
    if s.active then w.put i { s with queue := .write (some epoch) :: s.queue }
    else { w.put i s with ui := w.ui ++ [.failed i epoch] }
  | .write epoch =>
    if w.idle s.storageGeneration ∧ ok then
      { w.put i { s with loaded := s.loaded || epoch.isSome } with store := s.state }
    else { w.put i s with ui := w.ui ++ (epoch.map (UiTask.failed i)).toList }
  | .save saveSelection storageGeneration =>
    if saveSelection ∧ s.state.identity.isSome ∧ w.idle storageGeneration ∧
      ok then { w.put i s with store := s.state }
    else w.put i s
  | .mark token =>
    if ok then
      { w.put i { s with state := .cleared token } with
        store := .cleared token, markers := token :: w.markers, cleared := false }.persisted token true
    else (w.put i s).persisted token false

def step (w : World) : Label → Option World
  | .dies => some { World.init w.store with markers := w.markers, cleared := w.cleared }
  | .opens i => if (w.sessions i).isNone then some (w.put i .fresh) else none
  | .starts i => (w.sessions i).map fun s => w.put i s.start
  | .stops i => (w.sessions i).map fun s => w.put i s.stop
  | .closes i => (w.sessions i).map fun s =>
    if s.closed then w
    else { w.put i { s.stop with closed := true } with ui := w.ui.filter fun task => task.session ≠ i }
  | .unpairs i token => (w.sessions i).bind fun s =>
    if token ∈ w.markers then none
    else if s.closed ∨ s.clearingEnrollment then some w
    else some (w.unpair i s token)
  | .works i ok => (w.sessions i).bind fun s =>
    match s.queue with
    | [] => none
    | task :: queue => some (work w i { s with queue } ok task)
  -- The worker's next task is then the write.
  | .ticks i update => (w.sessions i).bind fun s =>
    if s.loaded ∧ s.active ∧ s.queue.head?.any Task.starts = false then
      some (w.put i { s with state := update.apply w.markers.length s.state, queue := .write none ::
        s.queue })
    else none
  | .shows n =>
    match w.ui[n]? with
    | some (.resume i epoch token) => (w.sessions i).map fun s =>
      let s := if !s.closed && s.generation = epoch then { s with pendingStart := true } else s
      ({ w with ui := w.ui.eraseIdx n }.put i s).request i token
    | some (.failed i epoch) => (w.sessions i).map fun s =>
      { w with ui := w.ui.eraseIdx n }.put i (if s.generation = epoch then { s with running := false } else s)
    | none => none
  | .answers n =>
    match w.due[n]? with
    | some (listener, success) => (w.sessions listener.session).map fun s =>
      let restart := s.pendingStart
      let s := { s with clearingEnrollment := false, pendingStart := false }
      let s := if !s.closed && success && restart then s.start else s
      { w.put listener.session s with due := w.due.eraseIdx n, called := listener.serial :: w.called }
    | none => none
  | .checks ok => w.job.bind fun job =>
    match job.phase, job.persisted with
    | .queued, some persisted =>
      some (if persisted = false ∨ ok = false then w.finish job false
        -- A stale reader may join just after another instance completed.
        else if w.store.marker ≠ some job.token then w.finish job true
        else w.setPhase job .posted)
    | _, _ => none
  | .clears ok => w.job.bind fun job =>
    if job.phase = .posted then some (if ok then w.setPhase job .clearing else w.finish job false) else none
  | .callsBack cleared => w.job.bind fun job =>
    if job.phase = .clearing then
      let w := { w with fired := job.listeners.map Listener.serial ++ w.fired }
      some (if cleared then { w.setPhase job .finalizing with cleared := true } else w.finish job false)
    else none
  | .finalizes ok => w.job.bind fun job =>
    if job.phase = .finalizing then
      some (if ok then
        { w with store := if w.store.marker = some job.token then { w.store with marker := none }
          else w.store }.finish job true
      else w.finish job false)
    else none

/-! ### What is promised -/

/-- Nothing is from before a reset. -/
structure Fresh (resets : Nat) (state : Saved) : Prop where
  identity : ∀ n ∈ state.identity, n = resets
  pending : ∀ n ∈ state.pending, n = resets
  bundle : ∀ n ∈ state.bundle, n = resets

/-- The session's state was read while a reset was registered that is persisted by now, and would be
written. -/
def Revives (w : World) (s : Session) (storageGeneration : Option Nat) : Prop :=
  (∃ token, s.during = some token ∧ token ∈ w.markers) ∧ w.idle storageGeneration

/-- No load and no stop writes a state that was read between the registration of a reset and its marker. -/
def Undisturbed (w : World) : Label → Prop
  | .works i _ => ∀ s, w.sessions i = some s → ∀ task ∈ s.queue.head?, match task with
    | .write (some _) => ¬ Revives w s s.storageGeneration
    | .save saveSelection storageGeneration =>
      saveSelection → s.state.identity.isSome → ¬ Revives w s storageGeneration
    | _ => True
  | _ => True

/-- The listeners of the job. -/
def World.listening (w : World) : Option (Phase × List Nat) :=
  w.job.map fun job => (job.phase, job.listeners.map Listener.serial)

/-- Every listener was called at most once, and once if the clear callback of its job came and the
tasks that it posted have run. -/
def World.Heard (w : World) : Prop :=
  w.called.Nodup ∧ ∀ serial ∈ w.fired, serial ∈ w.called ∨ serial ∈ w.due.map (·.1.serial) ∨
    ∃ serials, w.listening = some (.finalizing, serials) ∧ serial ∈ serials

/-- The cleanup marker leaves the store once the browser sessions are cleared. -/
def World.Clears (w : World) : Prop :=
  ∀ label w', Undisturbed w label → step w label = some w' → w.store.marker.isSome →
    w'.store.marker = none → w.cleared = true

/-! ### The invariant of the sessions -/

/-- The reset that waits for its marker, and its session. -/
def World.waiting (w : World) : Option (Token × Option Nat) :=
  w.job.bind fun job => if job.persisted = none then some (job.token, job.owner) else none

/-- The token that a task marks the store with. -/
def Task.marks : Task → Option Token
  | .mark token => some token
  | _ => none

/-- The markers that are queued on the worker of session `i`. -/
def expected (waiting : Option (Token × Option Nat)) (i : Nat) : List Token :=
  match waiting with
  | some (token, some owner) => if owner = i then [token] else []
  | _ => []

/-- The session can begin a tick, or is in one. -/
def Session.Ticks (s : Session) : Prop := s.loaded = true ∨ .write none ∈ s.queue

/-- A task in the queue is of the generation it was made in, and writes only what has no marker. -/
def Session.Admits (s : Session) : Task → Prop
  | .save _ (some generation) => ∃ g, s.storageGeneration = some g ∧ generation ≤ g
  | .persist _ | .write (some _) => s.state.marker = none
  | .write none => s.Ticks
  | _ => True

/-- What the session `i` knows of the store while it has the store's generation: the marker that it has
loaded, or that was set since, and what its queue is to do about it. -/
structure SessionInv (w : World) (i : Nat) (s : Session) : Prop where
  generation_le : ∀ g, s.storageGeneration = some g → g ≤ w.generation
  tasks : ∀ task ∈ s.queue, s.Admits task
  marked : s.storageGeneration = some w.generation → s.state.marker.isSome → s.state.identity = none
  fresh : s.storageGeneration = some w.generation → (∀ t, s.during = some t → t ∉ w.markers) →
    Fresh w.markers.length s.state
  window : s.storageGeneration = some w.generation → ∀ t owner, w.waiting = some (t, owner) →
    s.during = some t ∧ ¬ s.Ticks
  seen : s.storageGeneration = some w.generation → w.store.marker.isSome →
    (∃ t, s.during = some t ∧ t ∈ w.markers) ∨ s.state.marker.isSome
  loaded : s.Ticks → s.storageGeneration = some w.generation →
    s.state.marker = none ∧ ∀ t, s.during = some t → t ∉ w.markers
  tail : ∀ task ∈ s.queue.tail, task.starts = false
  marks : s.queue.filterMap Task.marks = expected w.waiting i

/-- The invariant of every run: that of each session, and what the store and the job say of each
other. -/
structure Inv (w : World) : Prop where
  sessions : ∀ i s, w.sessions i = some s → SessionInv w i s
  owner : ∀ t i, w.waiting = some (t, some i) → (w.sessions i).isSome
  fresh : Fresh w.markers.length w.store
  marked : w.store.marker.isSome → w.store.identity = none
  waiting : ∀ job, w.job = some job → job.persisted = none → job.phase = .queued ∧ job.token ∉ w.markers
  finalizing : ∀ job, w.job = some job → job.phase = .finalizing → w.cleared = true

/-- What the sessions see stays. -/
structure Same (w w' : World) : Prop where
  generation : w'.generation = w.generation
  markers : w'.markers = w.markers
  waiting : w'.waiting = w.waiting
  marker : w'.store.marker.isSome → w.store.marker.isSome

section Same

variable {w w' : World} {i : Nat} {s : Session}

theorem SessionInv.same (h : Same w w') (hs : SessionInv w i s) : SessionInv w' i s where
  generation_le := by
    rw [h.generation]
    exact hs.generation_le
  tasks := hs.tasks
  marked := by
    rw [h.generation]
    exact hs.marked
  fresh := by
    rw [h.generation, h.markers]
    exact hs.fresh
  window := by
    rw [h.generation, h.waiting]
    exact hs.window
  seen := by
    rw [h.generation, h.markers]
    exact fun hg hmarker => hs.seen hg (h.marker hmarker)
  loaded := by
    rw [h.generation, h.markers]
    exact hs.loaded
  tail := hs.tail
  marks := by
    rw [h.waiting]
    exact hs.marks

theorem isSome_put {j : Nat} (h : (w.sessions j).isSome) : ((w.put i s).sessions j).isSome := by
  unfold World.put
  dsimp only
  split
  · rfl
  · exact h

/-- A step that changes one session. -/
theorem Inv.put (hw : Inv w) (h : Same w w') (hsessions : w'.sessions = (w.put i s).sessions)
    (hs : SessionInv w i s)
    (hfresh : Fresh w'.markers.length w'.store) (hmarked : w'.store.marker.isSome → w'.store.identity = none)
    (hwaiting : ∀ job, w'.job = some job → job.persisted = none → job.phase = .queued ∧
      job.token ∉ w'.markers)
    (hfinalizing : ∀ job, w'.job = some job → job.phase = .finalizing → w'.cleared = true) : Inv w' := by
  refine ⟨fun j t hj => ?_, fun t j ht => ?_, hfresh, hmarked, hwaiting, hfinalizing⟩
  · rw [hsessions] at hj
    unfold World.put at hj
    dsimp only at hj
    split at hj
    · next hji =>
      obtain rfl := Option.some.inj hj
      exact hji ▸ hs.same h
    · exact (hw.sessions j t hj).same h
  · rw [hsessions]
    exact isSome_put (hw.owner t j (h.waiting ▸ ht))

/-- A step that changes no session. -/
theorem Inv.keep (hw : Inv w) (h : Same w w') (hsessions : w'.sessions = w.sessions)
    (hfresh : Fresh w'.markers.length w'.store)
    (hmarked : w'.store.marker.isSome → w'.store.identity = none)
    (hwaiting : ∀ job, w'.job = some job → job.persisted = none → job.phase = .queued ∧
      job.token ∉ w'.markers)
    (hfinalizing : ∀ job, w'.job = some job → job.phase = .finalizing → w'.cleared = true) : Inv w' :=
  ⟨fun i s hi => (hw.sessions i s (hsessions ▸ hi)).same h, fun t i ht => hsessions ▸
    hw.owner t i (h.waiting ▸ ht), hfresh, hmarked,
    hwaiting, hfinalizing⟩

end Same

/-! ### Calls -/

section Calls

variable {w w' : World} {i : Nat} {s : Session}

theorem Session.Admits.of_mem {t : Session} {task : Task} (hadmits : s.Admits task) (hmem : task ∈ t.queue)
    (hstorage : t.storageGeneration = s.storageGeneration) (hstate : t.state = s.state) : t.Admits task := by
  unfold Session.Admits at hadmits ⊢
  rw [hstorage, hstate]
  split
  · exact hadmits
  · exact hadmits
  · exact hadmits
  · exact .inr hmem
  · exact trivial

theorem Session.Admits.requeue {queue : List Task} (hnew : ∀ task ∈ queue, task ∈ s.queue ∨ s.Admits task)
    (htasks : ∀ task ∈ s.queue, s.Admits task) :
    (({ s with queue } : Session).Ticks → s.Ticks) ∧
    ∀ task ∈ queue, ({ s with queue } : Session).Admits task := by
  refine ⟨fun hticks => ?_, fun task hmem => ?_⟩
  · rcases hticks with hloaded | hmem
    · exact .inl hloaded
    · rcases hnew _ hmem with hold | hadmits
      · exact .inr hold
      · exact hadmits
  · have hadmits : s.Admits task := (hnew task hmem).elim (htasks task) id
    exact hadmits.of_mem hmem rfl rfl

theorem SessionInv.requeue (hs : SessionInv w i s) {queue : List Task}
    (hnew : ∀ task ∈ queue, task ∈ s.queue ∨ s.Admits task)
    (htail : ∀ task ∈ queue.tail, task.starts = false)
    (hmarks : queue.filterMap Task.marks = expected w.waiting i) :
    SessionInv w i { s with queue } :=
  have hqueue := Session.Admits.requeue hnew hs.tasks
  { hs with
    tasks := hqueue.2
    window := fun hg t owner ht =>
      ⟨(hs.window hg t owner ht).1, fun hticks => (hs.window hg t owner ht).2 (hqueue.1 hticks)⟩
    loaded := fun hticks => hs.loaded (hqueue.1 hticks)
    tail := htail
    marks := hmarks }

/-- A first reading of a newer generation is still to come. -/
theorem SessionInv.advance (hs : SessionInv w i s) (hgeneration : w.generation < w'.generation)
    {queue : List Task}
    (hnew : ∀ task ∈ queue, task ∈ s.queue ∨ s.Admits task) (htail : ∀ task ∈ queue.tail, task.starts = false)
    (hmarks : queue.filterMap Task.marks = expected w'.waiting i) : SessionInv w' i { s with queue } := by
  have hold : s.storageGeneration ≠ some w'.generation := fun hg =>
    absurd (hs.generation_le _ hg) (Nat.not_le_of_lt hgeneration)
  exact {
    generation_le := fun g hg => Nat.le_of_lt (Nat.lt_of_le_of_lt (hs.generation_le g hg) hgeneration)
    tasks := (Session.Admits.requeue hnew hs.tasks).2
    marked := fun hg => absurd hg hold
    fresh := fun hg => absurd hg hold
    window := fun hg => absurd hg hold
    seen := fun hg => absurd hg hold
    loaded := fun _ hg => absurd hg hold
    tail := htail
    marks := hmarks }

theorem append_tail (hs : SessionInv w i s) {task : Task} (hstarts : task.starts = false) :
    ∀ other ∈ (s.queue ++ [task]).tail, other.starts = false := by
  intro other hmem
  cases hqueue : s.queue with
  | nil =>
    rw [hqueue] at hmem
    cases hmem
  | cons head rest =>
    rw [hqueue, List.cons_append, List.tail_cons] at hmem
    rcases List.mem_append.1 hmem with hmem | hmem
    · exact hs.tail other (hqueue ▸ hmem)
    · exact List.mem_singleton.1 hmem ▸ hstarts

theorem append_new {task : Task} (hadmits : s.Admits task) :
    ∀ other ∈ s.queue ++ [task], other ∈ s.queue ∨ s.Admits other := by
  intro other hmem
  rcases List.mem_append.1 hmem with hmem | hmem
  · exact .inl hmem
  · exact .inr (List.mem_singleton.1 hmem ▸ hadmits)

theorem enqueue_open (hopen : s.closed = false) {task : Task} :
    s.enqueue task = { s with queue := s.queue ++ [task] } := by
  rw [Session.enqueue, hopen, if_neg Bool.false_ne_true]

theorem SessionInv.enqueue (hs : SessionInv w i s) {task : Task} (hstarts : task.starts = false)
    (hmarks : task.marks = none) (hadmits : s.Admits task) : SessionInv w i (s.enqueue task) := by
  unfold Session.enqueue
  split
  · exact hs
  · refine hs.requeue (append_new hadmits) (append_tail hs hstarts) ?_
    rw [List.filterMap_append, hs.marks, List.filterMap_cons, hmarks]
    exact List.append_nil _

/-- Neither the calls of a session nor the check for a reset change what the invariant is about. -/
theorem SessionInv.flags (hs : SessionInv w i s) {s' : Session}
    (hstorage : s'.storageGeneration = s.storageGeneration)
    (hstate : s'.state = s.state) (hloaded : s'.loaded → s.loaded) (hqueue : s'.queue = s.queue)
    (hduring : s'.during = s.during) :
    SessionInv w i s' := by
  obtain ⟨running, closed, clearing, pending, generation, epoch, storage, state, loaded, queue, during⟩ := s'
  obtain rfl : storage = s.storageGeneration := hstorage
  obtain rfl : state = s.state := hstate
  obtain rfl : queue = s.queue := hqueue
  obtain rfl : during = s.during := hduring
  have hticks : ∀ {t : Session}, (t.loaded → s.loaded) → t.queue = s.queue → t.Ticks →
      s.Ticks := fun hl hq h =>
    h.imp hl (hq ▸ ·)
  exact {
    generation_le := hs.generation_le
    tasks := fun task hmem => (hs.tasks task hmem).of_mem hmem rfl rfl
    marked := hs.marked
    fresh := hs.fresh
    window := fun hg t owner ht =>
      ⟨(hs.window hg t owner ht).1, fun h => (hs.window hg t owner ht).2 (hticks hloaded rfl h)⟩
    seen := hs.seen
    loaded := fun h => hs.loaded (hticks hloaded rfl h)
    tail := hs.tail
    marks := hs.marks }

theorem SessionInv.start (hs : SessionInv w i s) : SessionInv w i s.start := by
  unfold Session.start
  split
  · exact hs
  · split
    · exact hs.flags rfl rfl id rfl rfl
    · split
      · exact hs
      · have hrunning : SessionInv w i { s with running := true, generation := s.generation + 1 } :=
          hs.flags rfl rfl id rfl rfl
        exact hrunning.enqueue rfl rfl trivial

theorem SessionInv.stop (hs : SessionInv w i s) : SessionInv w i s.stop := by
  have hstopped : SessionInv w i { s with
      pendingStart := false, running := false, generation := s.generation + 1, loaded := false } :=
    hs.flags rfl rfl nofun rfl rfl
  refine hstopped.enqueue rfl rfl ?_
  cases hg : s.storageGeneration with
  | none => exact trivial
  | some g => exact ⟨g, rfl, Nat.le_refl _⟩

/-- Only the sessions and what is posted changes. -/
theorem Inv.session (hw : Inv w) (hs : SessionInv w i s) (hsessions : w'.sessions = (w.put i s).sessions)
    (hstore : w'.store = w.store) (hgeneration : w'.generation = w.generation)
    (hmarkers : w'.markers = w.markers)
    (hjob : w'.job = w.job) (hcleared : w'.cleared = w.cleared) : Inv w' := by
  have hsame : Same w w' := ⟨hgeneration, hmarkers, by rw [World.waiting, hjob]; rfl, fun h => hstore ▸ h⟩
  refine hw.put hsame hsessions hs ?_ ?_ ?_ ?_
  · rw [hstore, hmarkers]
    exact hw.fresh
  · rw [hstore]
    exact hw.marked
  · rw [hjob, hmarkers]
    exact hw.waiting
  · rw [hjob, hcleared]
    exact hw.finalizing

theorem request_waiting (token : Token) : (w.request i token).waiting = w.waiting := by
  unfold World.waiting World.request
  cases w.job with
  | none => rfl
  | some job => rfl

theorem inv_request (hw : Inv w) (token : Token) : Inv (w.request i token) := by
  refine hw.keep ⟨rfl, rfl, request_waiting token, id⟩ rfl hw.fresh hw.marked (fun job hjob hnone =>
    ?_) fun job hjob hphase => ?_
  · cases hold : w.job with
    | none =>
      rw [World.request, hold] at hjob
      obtain rfl := Option.some.inj hjob
      cases hnone
    | some old =>
      rw [World.request, hold] at hjob
      obtain rfl := Option.some.inj hjob
      exact hw.waiting old hold hnone
  · cases hold : w.job with
    | none =>
      rw [World.request, hold] at hjob
      obtain rfl := Option.some.inj hjob
      cases hphase
    | some old =>
      rw [World.request, hold] at hjob
      obtain rfl := Option.some.inj hjob
      exact hw.finalizing old hold hphase

theorem inv_unpair (hw : Inv w) (hs : w.sessions i = some s) {token : Token} (hopen : s.closed = false)
    (hfresh : token ∉ w.markers) :
    Inv (w.unpair i s token) := by
  have hsession := hw.sessions i s hs
  have hclearing : SessionInv w i { s with clearingEnrollment := true } := hsession.flags rfl rfl id rfl rfl
  have hstopped := hclearing.stop
  have hopen' : ({ s with clearingEnrollment := true } : Session).stop.closed = false := by
    simp [Session.stop, Session.enqueue, hopen]
  unfold World.unpair World.begin
  generalize ({ s with clearingEnrollment := true } : Session).stop = stopped at hstopped hopen' ⊢
  cases hjob : w.job with
  | some job => exact inv_request (hw.session hstopped rfl rfl rfl rfl rfl rfl) _
  | none =>
    refine inv_request (i := i) ?_ token
    have hnone : w.waiting = none := by
      rw [World.waiting, hjob]
      rfl
    have hmarks : ∀ {t j}, SessionInv w j t → t.queue.filterMap Task.marks = [] := fun ht => by
      rw [ht.marks, hnone]
      rfl
    refine ⟨fun j t hj => ?_, fun t j ht => ?_, hw.fresh, hw.marked, fun job hj _ => ?_,
      fun job hj hphase => ?_⟩
    · unfold World.put at hj
      dsimp only [if_true] at hj
      split at hj
      · next hji =>
        obtain rfl := Option.some.inj hj
        subst hji
        rw [if_pos rfl, enqueue_open hopen']
        refine hstopped.advance ?_ (append_new trivial) (append_tail hstopped rfl) ?_
        · exact Nat.lt_succ_self w.generation
        · rw [List.filterMap_append, hmarks hstopped]
          exact (if_pos rfl).symm
      · next hji =>
        have ht := hw.sessions j t hj
        refine ht.advance ?_ (fun _ => .inl) ht.tail ?_
        · exact Nat.lt_succ_self w.generation
        · rw [hmarks ht]
          exact (if_neg (Ne.symm hji)).symm
    · obtain ⟨rfl, hj⟩ := Prod.mk.inj (Option.some.inj ht)
      obtain rfl := Option.some.inj hj
      show (if i = i then _ else _ : Option Session).isSome
      rw [if_pos rfl]
      rfl
    · obtain rfl := Option.some.inj hj
      exact ⟨rfl, hfresh⟩
    · obtain rfl := Option.some.inj hj
      cases hphase

theorem SessionInv.pop (hs : SessionInv w i s) {task : Task} {queue : List Task}
    (hqueue : s.queue = task :: queue)
    (hmarks : task.marks = none) : SessionInv w i { s with queue } := by
  refine hs.requeue (fun other hmem => .inl (hqueue ▸ List.mem_cons_of_mem _ hmem))
    (fun other hmem => hs.tail other (by rw [hqueue]; exact List.mem_of_mem_tail hmem)) ?_
  have := hs.marks
  rwa [hqueue, List.filterMap_cons, hmarks] at this

/-- A task begins its next part. -/
theorem SessionInv.next (hs : SessionInv w i s) {task later : Task} {queue : List Task}
    (hqueue : s.queue = task :: queue)
    (hmarks : task.marks = none) (hlater : later.marks = none) (hadmits : s.Admits later) :
    SessionInv w i { s with queue := later :: queue } := by
  refine hs.requeue (fun other hmem => ?_) (fun other hmem => hs.tail other (by rw [hqueue]; exact hmem)) ?_
  · rcases List.mem_cons.1 hmem with rfl | hmem
    · exact .inr hadmits
    · exact .inl (hqueue ▸ List.mem_cons_of_mem _ hmem)
  · have := hs.marks
    rw [hqueue, List.filterMap_cons, hmarks] at this
    rw [List.filterMap_cons, hlater]
    exact this

theorem read_waiting : w.read.waiting = w.waiting := by
  unfold World.read
  split <;> rfl

theorem inv_read (hw : Inv w) : Inv w.read := by
  unfold World.read
  split
  · next hadopts =>
    have hnone : w.waiting = none := by
      rw [World.waiting, Option.isNone_iff_eq_none.1 hadopts.2.1]
      rfl
    refine ⟨fun i s hs => ?_, fun t i ht => absurd (hnone ▸ ht) nofun, hw.fresh, hw.marked,
      hw.waiting, hw.finalizing⟩
    have hold := hw.sessions i s hs
    exact hold.advance (Nat.lt_succ_self _) (fun _ => .inl) hold.tail hold.marks
  · exact hw

end Calls

/-! ### The tasks of a worker -/

section Works

variable {w w' : World} {i : Nat} {s : Session} {queue : List Task}

theorem inv_load (hw : Inv w) (hs : SessionInv w i s) {epoch : Nat}
    (hqueue : s.queue = .load epoch :: queue) (ok : Bool) :
    Inv (work w i { s with queue } ok (.load epoch)) := by
  have hpop := hs.pop hqueue rfl
  unfold work
  dsimp only
  split
  · exact hw.session hpop rfl rfl rfl rfl rfl rfl
  · split
    · have hread := inv_read hw
      have hle : w.generation ≤ w.read.generation := by
        unfold World.read
        split
        · exact Nat.le_succ _
        · exact Nat.le_refl _
      have hrest : ∀ task ∈ queue, task.starts = false :=
        fun task hmem => hs.tail task (by rw [hqueue]; exact hmem)
      have hticks : ∀ {t : Session}, t.loaded = false → t.queue = .check epoch :: queue →
          ¬ t.Ticks := fun hloaded ht hticks => by
        rcases hticks with h | hmem
        · rw [hloaded] at h
          cases h
        · rw [ht] at hmem
          have := hrest _ ((List.mem_cons.1 hmem).resolve_left nofun)
          cases this
      refine hread.session (s := _) ?_ rfl rfl rfl rfl rfl rfl
      exact {
        generation_le := fun g hg => Nat.le_of_eq (Option.some.inj hg).symm
        tasks := fun task hmem => by
          rcases List.mem_cons.1 hmem with rfl | hmem
          · exact trivial
          · have hadmits := hpop.tasks task hmem
            have hstarts := hrest task hmem
            match task, hadmits, hstarts with
            | .save _ (some _), ⟨g, hg, hle'⟩, _ =>
              exact ⟨_, rfl, Nat.le_trans hle' (Nat.le_trans (hpop.generation_le g hg) hle)⟩
            | .save _ none, _, _ | .load _, _, _ | .mark _, _, _ => trivial
        marked := fun _ => hread.marked
        fresh := fun _ _ => hread.fresh
        window := fun _ t owner ht => by
          obtain ⟨job, hjob, hwaiting⟩ := Option.bind_eq_some_iff.1 ht
          split at hwaiting
          · refine ⟨?_, hticks rfl rfl⟩
            rw [hjob]
            exact congrArg some (Prod.mk.inj (Option.some.inj hwaiting)).1
          · cases hwaiting
        seen := fun _ => .inr
        loaded := fun h => absurd h (hticks rfl rfl)
        tail := hrest
        marks := by
          rw [read_waiting]
          exact hpop.marks }
    · exact hw.session (s := { s with queue, activeEpoch := epoch }) (hpop.flags rfl rfl id rfl rfl)
        rfl rfl rfl rfl rfl rfl

theorem inv_check (hw : Inv w) (hs : SessionInv w i s) {epoch : Nat}
    (hqueue : s.queue = .check epoch :: queue) (ok : Bool) :
    Inv (work w i { s with queue } ok (.check epoch)) := by
  unfold work
  dsimp only
  split
  · exact hw.session (s := { s with queue, clearingEnrollment := true, running := false })
      ((hs.pop hqueue rfl).flags rfl rfl id rfl rfl) rfl rfl rfl rfl rfl rfl
  · next hnone =>
    have hmarker : s.state.marker = none := (Option.or_eq_none_iff.1 hnone).2
    exact hw.session (hs.next hqueue rfl (show (Task.persist epoch).marks = none from rfl) hmarker)
      rfl rfl rfl rfl rfl rfl

theorem inv_persist (hw : Inv w) (hs : SessionInv w i s) {epoch : Nat}
    (hqueue : s.queue = .persist epoch :: queue) (ok : Bool) :
    Inv (work w i { s with queue } ok (.persist epoch)) := by
  have hmarker : s.state.marker = none := hs.tasks (.persist epoch) (hqueue ▸ List.mem_cons_self ..)
  unfold work
  dsimp only
  split
  · exact hw.session (hs.next hqueue rfl (show (Task.write (some epoch)).marks = none from rfl) hmarker)
      rfl rfl rfl rfl rfl rfl
  · exact hw.session (hs.pop hqueue rfl) rfl rfl rfl rfl rfl rfl

/-- The record that a session writes is fresh. -/
theorem inv_written (hw : Inv w) (hs : SessionInv w i s) (hcurrent : s.storageGeneration = some w.generation)
    (hduring : ∀ t, s.during = some t → t ∉ w.markers) (hmarker : s.state.marker = none)
    (hsessions : w'.sessions = (w.put i s).sessions)
    (hstore : w'.store = s.state) (hgeneration : w'.generation = w.generation)
    (hmarkers : w'.markers = w.markers)
    (hjob : w'.job = w.job) (hcleared : w'.cleared = w.cleared) : Inv w' := by
  have hnone : w'.store.marker.isSome → False := by
    rw [hstore, hmarker]
    exact nofun
  refine hw.put ⟨hgeneration, hmarkers, by rw [World.waiting, hjob]; rfl, fun h => (hnone h).elim⟩
    hsessions hs ?_
    (fun h => (hnone h).elim) ?_ ?_
  · rw [hstore, hmarkers]
    exact hs.fresh hcurrent hduring
  · rw [hjob, hmarkers]
    exact hw.waiting
  · rw [hjob, hcleared]
    exact hw.finalizing

theorem idle_current {generation : Option Nat} (hidle : w.idle generation) :
    generation = some w.generation := by
  simpa using (Bool.and_eq_true_iff.1 hidle).2

theorem idle_waiting {generation : Option Nat} (hidle : w.idle generation) : w.waiting = none := by
  have hjob : w.job = none := by simpa using (Bool.and_eq_true_iff.1 hidle).1
  rw [World.waiting, hjob]
  rfl

/-- What a session may write. -/
def Writes (w : World) (s : Session) : Prop :=
  s.storageGeneration = some w.generation ∧ s.state.marker = none ∧ ∀ t, s.during = some t → t ∉ w.markers

theorem writes_write (hs : SessionInv w i s) {epoch : Option Nat} (hqueue : s.queue = .write epoch :: queue)
    (hgood : epoch.isSome → ¬ Revives w s s.storageGeneration) (hidle : w.idle s.storageGeneration) :
    Writes w s := by
  have hcurrent := idle_current hidle
  have hadmits := hs.tasks (.write epoch) (hqueue ▸ List.mem_cons_self ..)
  cases epoch with
  | none => exact ⟨hcurrent, hs.loaded hadmits hcurrent⟩
  | some epoch => exact ⟨hcurrent, hadmits, fun t ht hmem => hgood rfl ⟨⟨t, ht, hmem⟩, hidle⟩⟩

theorem writes_save (hs : SessionInv w i s) {b : Bool} {generation : Option Nat}
    (hqueue : s.queue = .save b generation :: queue)
    (hidentity : s.state.identity.isSome) (hgood : ¬ Revives w s generation) (hidle : w.idle generation) :
    Writes w s := by
  -- The storage generation that a stop saved with is that of the state, where it is the present one.
  have hcurrent : s.storageGeneration = some w.generation := by
    have hadmits := hs.tasks (.save b generation) (hqueue ▸ List.mem_cons_self ..)
    obtain rfl := idle_current hidle
    obtain ⟨g, hg, hle⟩ := hadmits
    rw [hg, Nat.le_antisymm hle (hs.generation_le g hg)]
  have hmarker : s.state.marker = none := by
    by_contra hsome
    rw [hs.marked hcurrent (Option.isSome_iff_ne_none.2 hsome)] at hidentity
    cases hidentity
  exact ⟨hcurrent, hmarker, fun t ht hmem => hgood ⟨⟨t, ht, hmem⟩, hidle⟩⟩

/-- A session writes into a store without marker. -/
theorem Writes.unmarked (h : Writes w s) (hs : SessionInv w i s) : w.store.marker = none := by
  obtain ⟨hcurrent, hmarker, hduring⟩ := h
  by_contra hsome
  rcases hs.seen hcurrent (Option.isSome_iff_ne_none.2 hsome) with ⟨t, ht, hmem⟩ | hstate
  · exact hduring t ht hmem
  · rw [hmarker] at hstate
    cases hstate

theorem inv_write (hw : Inv w) (hs : SessionInv w i s) {epoch : Option Nat}
    (hqueue : s.queue = .write epoch :: queue)
    (hgood : epoch.isSome → ¬ Revives w s s.storageGeneration) (ok : Bool) :
    Inv (work w i { s with queue } ok (.write epoch)) := by
  have hpop := hs.pop hqueue rfl
  unfold work
  dsimp only
  split
  · next hwrites =>
    obtain ⟨hcurrent, hmarker, hduring⟩ := writes_write hs hqueue hgood hwrites.1
    refine inv_written (s := { s with queue, loaded := s.loaded || epoch.isSome }) hw ?_ hcurrent
      hduring hmarker
      rfl rfl rfl rfl rfl rfl
    exact {
      generation_le := hpop.generation_le
      tasks := fun task hmem => (hpop.tasks task hmem).of_mem hmem rfl rfl
      marked := hpop.marked
      fresh := hpop.fresh
      window := fun _ t owner ht => absurd (idle_waiting hwrites.1 ▸ ht) nofun
      seen := hpop.seen
      loaded := fun _ _ => ⟨hmarker, hduring⟩
      tail := hpop.tail
      marks := hpop.marks }
  · exact hw.session hpop rfl rfl rfl rfl rfl rfl

theorem inv_save (hw : Inv w) (hs : SessionInv w i s) {b : Bool} {generation : Option Nat}
    (hqueue : s.queue = .save b generation :: queue)
    (hgood : b → s.state.identity.isSome → ¬ Revives w s generation) (ok : Bool) :
    Inv (work w i { s with queue } ok (.save b generation)) := by
  have hpop := hs.pop hqueue rfl
  unfold work
  dsimp only
  split
  · next hwrites =>
    obtain ⟨hb, hidentity, hidle, _⟩ := hwrites
    obtain ⟨hcurrent, hmarker, hduring⟩ := writes_save hs hqueue hidentity (hgood hb hidentity) hidle
    exact inv_written (s := { s with queue }) hw hpop hcurrent hduring hmarker rfl rfl rfl rfl rfl rfl
  · exact hw.session hpop rfl rfl rfl rfl rfl rfl

/-- The reset that waited for its marker waits no more. -/
theorem SessionInv.settled (hs : SessionInv w i s) (hgeneration : w'.generation = w.generation)
    (hmarkers : w'.markers = w.markers)
    (hmarker : w'.store.marker.isSome → w.store.marker.isSome) (hwaiting : w'.waiting = none)
    (hold : ∀ task ∈ queue, task ∈ s.queue) (htail : ∀ task ∈ queue.tail, task.starts = false)
    (hmarks : queue.filterMap Task.marks = []) : SessionInv w' i { s with queue } :=
  have hqueue := Session.Admits.requeue (fun task hmem => .inl (hold task hmem)) hs.tasks
  { generation_le := by
      rw [hgeneration]
      exact hs.generation_le
    tasks := hqueue.2
    marked := by
      rw [hgeneration]
      exact hs.marked
    fresh := by
      rw [hgeneration, hmarkers]
      exact hs.fresh
    window := fun _ t owner ht => absurd (hwaiting ▸ ht) nofun
    seen := by
      rw [hgeneration, hmarkers]
      exact fun hg h => hs.seen hg (hmarker h)
    loaded := by
      rw [hgeneration, hmarkers]
      exact fun hticks => hs.loaded (hqueue.1 hticks)
    tail := htail
    marks := by
      rw [hwaiting]
      exact hmarks }

theorem waiting_persisted {job : Job} {b : Bool} (hjob : w.job = some { job with persisted := some b }) :
    w.waiting = none := by
  rw [World.waiting, hjob]
  rfl

/-- Every state of the present generation was read while the reset was registered. -/
theorem SessionInv.marked_now (hs : SessionInv w i s) {token : Token} {owner : Option Nat}
    (hwaited : w.waiting = some (token, owner))
    (hgeneration : w'.generation = w.generation) (hmarkers : w'.markers = token :: w.markers)
    (hwaiting : w'.waiting = none)
    (hmarks : s.queue.filterMap Task.marks = []) : SessionInv w' i s := by
  have hmem : s.storageGeneration = some w'.generation → s.during = some token ∧ ¬ s.Ticks := fun hg =>
    hs.window (hgeneration ▸ hg) token owner hwaited
  have hnow : token ∈ w'.markers := hmarkers ▸ List.mem_cons_self ..
  exact {
    generation_le := by
      rw [hgeneration]
      exact hs.generation_le
    tasks := hs.tasks
    marked := by
      rw [hgeneration]
      exact hs.marked
    fresh := fun hg hduring => absurd hnow (hduring token (hmem hg).1)
    window := fun _ t owner ht => absurd (hwaiting ▸ ht) nofun
    seen := fun hg _ => .inl ⟨token, (hmem hg).1, hnow⟩
    loaded := fun hticks hg => absurd hticks (hmem hg).2
    tail := hs.tail
    marks := by
      rw [hwaiting]
      exact hmarks }

theorem marks_of_waiting (hw : Inv w) (hs : w.sessions i = some s) {token : Token}
    (hqueue : s.queue = .mark token :: queue) :
    (∃ job, w.job = some job ∧ job.persisted = none ∧ job.token = token ∧ job.owner = some i) ∧
    queue.filterMap Task.marks = [] := by
  have hmarks := (hw.sessions i s hs).marks
  rw [hqueue, List.filterMap_cons] at hmarks
  change token :: queue.filterMap Task.marks = _ at hmarks
  unfold expected at hmarks
  split at hmarks
  · next claimed owner hwaiting =>
    split at hmarks
    · next howner =>
      obtain ⟨rfl, hrest⟩ := List.cons.inj hmarks
      refine ⟨?_, hrest⟩
      obtain ⟨job, hjob, hpersisted⟩ := Option.bind_eq_some_iff.1 hwaiting
      split at hpersisted
      · next hnone =>
        obtain ⟨htoken, hjobowner⟩ := Prod.mk.inj (Option.some.inj hpersisted)
        exact ⟨job, hjob, hnone, htoken, hjobowner.trans (congrArg some howner)⟩
      · cases hpersisted
    · cases hmarks
  · cases hmarks

/-- The job's session is done with the marker. -/
theorem inv_persisted {job : Job} {b : Bool} (hphase : job.phase = .queued)
    (hjob : w'.job = some { job with persisted := some b }) (hsessions : w'.sessions = (w.put i s).sessions)
    (hs : SessionInv w' i s) (hothers : ∀ j t, j ≠ i → w.sessions j = some t → SessionInv w' j t)
    (hfresh : Fresh w'.markers.length w'.store)
    (hmarked : w'.store.marker.isSome → w'.store.identity = none) : Inv w' := by
  have hwaiting := waiting_persisted hjob
  refine ⟨fun j t hj => ?_, fun t j ht => absurd (hwaiting ▸ ht) nofun, hfresh, hmarked,
    fun other hother hnone => ?_, fun other hother hfinal => ?_⟩
  · rw [hsessions] at hj
    change (if j = i then _ else _) = some t at hj
    split at hj
    · next hji =>
      obtain rfl := Option.some.inj hj
      exact hji ▸ hs
    · next hji => exact hothers j t hji hj
  · obtain rfl := Option.some.inj (hjob.symm.trans hother)
    cases hnone
  · obtain rfl := Option.some.inj (hjob.symm.trans hother)
    rw [hphase] at hfinal
    cases hfinal

theorem inv_mark (hw : Inv w) (hs : w.sessions i = some s) {token : Token}
    (hqueue : s.queue = .mark token :: queue) (ok : Bool) :
    Inv (work w i { s with queue } ok (.mark token)) := by
  obtain ⟨⟨job, hjob, hnone, rfl, howner⟩, hrest⟩ := marks_of_waiting hw hs hqueue
  have hsession := hw.sessions i s hs
  have hwaited : w.waiting = some (job.token, some i) := by
    rw [World.waiting, hjob]
    exact (if_pos hnone).trans (congrArg (fun o => some (job.token, o)) howner)
  have hphase := (hw.waiting job hjob hnone).1
  have hothers : ∀ j t, j ≠ i → w.sessions j = some t →
      t.queue.filterMap Task.marks = [] := fun j t hji ht => by
    rw [(hw.sessions j t ht).marks, hwaited]
    exact if_neg (Ne.symm hji)
  have hlater : ∀ task ∈ queue, task.starts = false :=
    fun task hmem => hsession.tail task (by rw [hqueue]; exact hmem)
  have hticks : ∀ {state}, ({ s with queue, state } : Session).Ticks → s.Ticks := fun hticks =>
    hticks.imp id fun hmem => hqueue ▸ List.mem_cons_of_mem _ hmem
  have htail : ∀ task ∈ queue.tail, task.starts = false :=
    fun task hmem => hlater task (List.mem_of_mem_tail hmem)
  have hnext : ∀ b : Bool, (w.job.map fun other =>
      if other.token = job.token then { other with persisted := other.persisted.or (some b) } else other) =
      some { job with persisted := some b } := fun b => by
    rw [hjob, Option.map_some, if_pos rfl, hnone]
    rfl
  unfold work
  dsimp only
  split
  · refine inv_persisted hphase (hnext true) rfl ?_ (fun j t hji ht => ?_) ⟨nofun, nofun, nofun⟩ fun _ => rfl
    · exact {
        generation_le := hsession.generation_le
        tasks := fun task hmem => by
          have hadmits := hsession.tasks task (hqueue ▸ List.mem_cons_of_mem _ hmem)
          have hstarts := hlater task hmem
          match task, hadmits, hstarts with
          | .save _ (some _), hadmits, _ => exact hadmits
          | .save _ none, _, _ | .load _, _, _ | .mark _, _, _ => trivial
        marked := fun _ _ => rfl
        fresh := fun _ _ => ⟨nofun, nofun, nofun⟩
        window := fun _ t owner ht => absurd (ht.symm.trans (waiting_persisted (hnext true))) nofun
        seen := fun _ _ => .inr rfl
        loaded := fun h hg => absurd (hticks h) (hsession.window hg _ _ hwaited).2
        tail := htail
        marks := hrest.trans (congrArg (expected · i) (waiting_persisted (hnext true))).symm }
    · exact (hw.sessions j t ht).marked_now hwaited rfl rfl (waiting_persisted (hnext true))
        (hothers j t hji ht)
  · refine inv_persisted hphase (hnext false) rfl ?_ (fun j t hji ht => ?_) hw.fresh hw.marked
    · exact hsession.settled rfl rfl id (waiting_persisted (hnext false))
        (fun task hmem => hqueue ▸ List.mem_cons_of_mem _ hmem) htail hrest
    · have ht' := hw.sessions j t ht
      exact ht'.settled rfl rfl id (waiting_persisted (hnext false)) (fun _ => id) ht'.tail
        (hothers j t hji ht)

theorem inv_works (hw : Inv w) (hs : w.sessions i = some s) {task : Task}
    (hqueue : s.queue = task :: queue) {ok : Bool}
    (hgood : Undisturbed w (.works i ok)) : Inv (work w i { s with queue } ok task) := by
  have hsession := hw.sessions i s hs
  have hhead := hgood s hs task (by rw [hqueue]; rfl)
  match task, hhead with
  | .load epoch, _ => exact inv_load hw hsession hqueue ok
  | .check epoch, _ => exact inv_check hw hsession hqueue ok
  | .persist epoch, _ => exact inv_persist hw hsession hqueue ok
  | .write none, _ => exact inv_write hw hsession hqueue nofun ok
  | .write (some epoch), hhead => exact inv_write hw hsession hqueue (fun _ => hhead) ok
  | .save b generation, hhead => exact inv_save hw hsession hqueue hhead ok
  | .mark token, _ => exact inv_mark hw hs hqueue ok

/-- No task of a worker takes the marker away. -/
theorem work_marker (hw : Inv w) (hs : w.sessions i = some s) {task : Task}
    (hqueue : s.queue = task :: queue) {ok : Bool}
    (hgood : Undisturbed w (.works i ok)) (hmarker : w.store.marker.isSome) :
    (work w i { s with queue } ok task).store.marker.isSome := by
  have hsession := hw.sessions i s hs
  have hhead := hgood s hs task (by rw [hqueue]; rfl)
  have hwrites : ¬ Writes w s := fun h => by
    rw [h.unmarked hsession] at hmarker
    cases hmarker
  have hread : w.read.store = w.store := by
    unfold World.read
    split <;> rfl
  unfold work
  match task, hhead with
  | .load epoch, _ =>
    dsimp only
    split
    · exact hmarker
    · split
      · exact (congrArg (fun store => store.marker.isSome) hread).trans hmarker
      · exact hmarker
  | .check epoch, _ | .persist epoch, _ =>
    dsimp only
    split <;> exact hmarker
  | .write none, _ =>
    dsimp only
    split
    · next h => exact absurd (writes_write hsession hqueue nofun h.1) hwrites
    · exact hmarker
  | .write (some epoch), hhead =>
    dsimp only
    split
    · next h => exact absurd (writes_write hsession hqueue (fun _ => hhead) h.1) hwrites
    · exact hmarker
  | .save b generation, hhead =>
    dsimp only
    split
    · next h => exact absurd (writes_save hsession hqueue h.2.1 (hhead h.1 h.2.1) h.2.2.1) hwrites
    · exact hmarker
  | .mark token, _ =>
    dsimp only
    split
    · rfl
    · exact hmarker

end Works

/-! ### The other steps -/

section Steps

variable {w w' : World} {i : Nat} {s : Session} {job : Job}

theorem Fresh.apply {resets : Nat} {state : Saved} (h : Fresh resets state) (update : Update) :
    Fresh resets (update.apply resets state) := by
  cases update with
  | initiates => exact { h with pending := fun n hn => (Option.mem_some.1 hn).symm }
  | claims => exact { h with identity := h.pending }
  | finishes => exact { h with pending := nofun }
  | fetches => exact { h with bundle := h.identity }
  | forgets => exact { h with bundle := nofun }
  | selects => exact h

theorem apply_marker (resets : Nat) (state : Saved) (update : Update) :
    (update.apply resets state).marker = state.marker := by
  cases update <;> rfl

theorem inv_ticks (hw : Inv w) (hs : SessionInv w i s) (hloaded : s.loaded)
    (hidle : s.queue.head?.any Task.starts = false)
    (update : Update) :
    Inv (w.put i { s with state := update.apply w.markers.length s.state, queue := .write none ::
      s.queue }) := by
  have hlater : ∀ task ∈ s.queue, task.starts = false := fun task hmem => by
    cases hqueue : s.queue with
    | nil =>
      rw [hqueue] at hmem
      cases hmem
    | cons head rest =>
      rw [hqueue] at hmem hidle
      rcases List.mem_cons.1 hmem with rfl | hmem
      · exact hidle
      · exact hs.tail task (by rw [hqueue]; exact hmem)
  refine hw.session (s := _) ?_ rfl rfl rfl rfl rfl rfl
  exact {
    generation_le := hs.generation_le
    tasks := fun task hmem => by
      rcases List.mem_cons.1 hmem with rfl | hmem
      · exact .inr (List.mem_cons_self ..)
      · have hadmits := hs.tasks task hmem
        have hstarts := hlater task hmem
        match task, hadmits, hstarts with
        | .save _ (some _), hadmits, _ => exact hadmits
        | .save _ none, _, _ | .load _, _, _ | .mark _, _, _ => trivial
    marked := fun hg hmarker => by
      rw [apply_marker, (hs.loaded (.inl hloaded) hg).1] at hmarker
      cases hmarker
    fresh := fun hg hduring => (hs.fresh hg hduring).apply update
    window := fun hg t owner ht => absurd (.inl hloaded) (hs.window hg t owner ht).2
    seen := fun hg hmarker => by
      rw [apply_marker]
      exact hs.seen hg hmarker
    loaded := fun _ hg => by
      rw [apply_marker]
      exact hs.loaded (.inl hloaded) hg
    tail := hlater
    marks := hs.marks }

theorem inv_opens (hw : Inv w) (hnone : w.sessions i = none) : Inv (w.put i .fresh) := by
  refine hw.session (s := .fresh) ?_ rfl rfl rfl rfl rfl rfl
  have hmarks : expected w.waiting i = [] := by
    unfold expected
    split
    · next t owner hwaiting =>
      refine if_neg fun howner => ?_
      have := hw.owner t owner hwaiting
      rw [howner, hnone] at this
      cases this
    · rfl
  exact {
    generation_le := nofun
    tasks := nofun
    marked := nofun
    fresh := nofun
    window := nofun
    seen := nofun
    loaded := nofun
    tail := nofun
    marks := hmarks.symm }

/-- The job's marker is written or will not be. -/
theorem done_waiting (hw : Inv w) (hjob : w.job = some job)
    (hdone : job.persisted ≠ none ∨ job.phase ≠ .queued) : w.waiting = none := by
  rw [World.waiting, hjob]
  refine if_neg fun hnone => ?_
  rcases hdone with h | h
  · exact h hnone
  · exact h (hw.waiting job hjob hnone).1

theorem inv_finish (hw : Inv w) (hwaiting : w.waiting = none) (success : Bool) : Inv (w.finish job success) :=
  hw.keep ⟨rfl, rfl, hwaiting.symm, id⟩ rfl hw.fresh hw.marked nofun nofun

theorem inv_setPhase (hw : Inv w) (hjob : w.job = some job) (hwaiting : w.waiting = none)
    {phase : Phase} {cleared : Bool}
    (hphase : phase = .finalizing → cleared = true) : Inv { w.setPhase job phase with cleared } := by
  have hpersisted : job.persisted ≠ none := fun hnone => by
    rw [World.waiting, hjob] at hwaiting
    exact absurd (hwaiting.symm.trans (if_pos hnone)) nofun
  refine hw.keep ⟨rfl, rfl, ?_, id⟩ rfl hw.fresh hw.marked (fun other hother hnone => ?_)
    fun other hother hfinal => ?_
  · rw [hwaiting]
    exact if_neg hpersisted
  · obtain rfl := Option.some.inj hother
    exact absurd hnone hpersisted
  · obtain rfl := Option.some.inj hother
    exact hphase hfinal

theorem inv_shows (hw : Inv w) {n : Nat} (h : step w (.shows n) = some w') : Inv w' := by
  simp only [step] at h
  split at h
  · next i epoch token _ =>
    obtain ⟨s, hs, rfl⟩ := Option.map_eq_some_iff.1 h
    refine inv_request ?_ token
    refine hw.session (s := _) ?_ rfl rfl rfl rfl rfl rfl
    split
    · exact (hw.sessions i s hs).flags rfl rfl id rfl rfl
    · exact hw.sessions i s hs
  · next i epoch _ =>
    obtain ⟨s, hs, rfl⟩ := Option.map_eq_some_iff.1 h
    refine hw.session (s := _) ?_ rfl rfl rfl rfl rfl rfl
    split
    · exact (hw.sessions i s hs).flags rfl rfl id rfl rfl
    · exact hw.sessions i s hs
  · cases h

theorem inv_answers (hw : Inv w) {n : Nat} (h : step w (.answers n) = some w') : Inv w' := by
  simp only [step] at h
  split at h
  · next listener success _ =>
    obtain ⟨s, hs, rfl⟩ := Option.map_eq_some_iff.1 h
    refine hw.session (s := _) ?_ rfl rfl rfl rfl rfl rfl
    have hanswered : SessionInv w listener.session { s with
        clearingEnrollment := false, pendingStart := false } :=
      (hw.sessions _ s hs).flags rfl rfl id rfl rfl
    split
    · exact hanswered.start
    · exact hanswered
  · cases h

theorem inv_checks (hw : Inv w) {ok : Bool} (h : step w (.checks ok) = some w') : Inv w' := by
  obtain ⟨job, hjob, h⟩ := Option.bind_eq_some_iff.1 h
  split at h
  · next persisted _ hpersisted =>
    have hwaiting := done_waiting hw hjob (.inl (hpersisted ▸ nofun))
    obtain rfl := Option.some.inj h
    split
    · exact inv_finish hw hwaiting false
    · split
      · exact inv_finish hw hwaiting true
      · exact inv_setPhase hw hjob hwaiting nofun
  · cases h

theorem inv_clears (hw : Inv w) {ok : Bool} (h : step w (.clears ok) = some w') : Inv w' := by
  obtain ⟨job, hjob, h⟩ := Option.bind_eq_some_iff.1 h
  split at h
  · next hphase =>
    have hwaiting := done_waiting hw hjob (.inr (hphase ▸ nofun))
    obtain rfl := Option.some.inj h
    split
    · exact inv_setPhase hw hjob hwaiting nofun
    · exact inv_finish hw hwaiting false
  · cases h

theorem inv_callsBack (hw : Inv w) {cleared : Bool} (h : step w (.callsBack cleared) = some w') : Inv w' := by
  obtain ⟨job, hjob, h⟩ := Option.bind_eq_some_iff.1 h
  split at h
  · next hphase =>
    have hwaiting := done_waiting hw hjob (.inr (hphase ▸ nofun))
    have hfired : Inv { w with fired := job.listeners.map Listener.serial ++ w.fired } :=
      hw.keep ⟨rfl, rfl, rfl, id⟩ rfl hw.fresh hw.marked hw.waiting hw.finalizing
    obtain rfl := Option.some.inj h
    split
    · exact inv_setPhase hfired hjob hwaiting fun _ => rfl
    · exact inv_finish hfired hwaiting false
  · cases h

theorem inv_finalizes (hw : Inv w) {ok : Bool} (h : step w (.finalizes ok) = some w') : Inv w' := by
  obtain ⟨job, hjob, h⟩ := Option.bind_eq_some_iff.1 h
  split at h
  · next hphase =>
    have hwaiting := done_waiting hw hjob (.inr (hphase ▸ nofun))
    obtain rfl := Option.some.inj h
    split
    · have hstore : Inv { w with store :=
            if w.store.marker = some job.token then { w.store with marker := none } else w.store } := by
        split
        · exact hw.keep ⟨rfl, rfl, rfl, nofun⟩ rfl ⟨hw.fresh.identity, hw.fresh.pending,
            hw.fresh.bundle⟩ nofun hw.waiting hw.finalizing
        · exact hw.keep ⟨rfl, rfl, rfl, id⟩ rfl hw.fresh hw.marked hw.waiting hw.finalizing
      exact inv_finish hstore hwaiting true
    · exact inv_finish hw hwaiting false
  · cases h

theorem inv_step {label : Label} (hw : Inv w) (hgood : Undisturbed w label) (h : step w label = some w') :
    Inv w' := by
  cases label with
  | dies =>
    obtain rfl := Option.some.inj h
    exact ⟨fun _ s hs => absurd hs.symm (Option.some_ne_none s),
      fun t i ht => absurd ht.symm (Option.some_ne_none (t, some i)), hw.fresh, hw.marked,
      fun job hjob => absurd hjob.symm (Option.some_ne_none job),
      fun job hjob => absurd hjob.symm (Option.some_ne_none job)⟩
  | opens i =>
    simp only [step] at h
    split at h
    · next hnone =>
      obtain rfl := Option.some.inj h
      exact inv_opens hw (Option.isNone_iff_eq_none.1 hnone)
    · cases h
  | starts i =>
    obtain ⟨s, hs, rfl⟩ := Option.map_eq_some_iff.1 h
    exact hw.session (hw.sessions i s hs).start rfl rfl rfl rfl rfl rfl
  | stops i =>
    obtain ⟨s, hs, rfl⟩ := Option.map_eq_some_iff.1 h
    exact hw.session (hw.sessions i s hs).stop rfl rfl rfl rfl rfl rfl
  | closes i =>
    obtain ⟨s, hs, rfl⟩ := Option.map_eq_some_iff.1 h
    split
    · exact hw
    · have hclosed : SessionInv w i { s.stop with closed := true } :=
        (hw.sessions i s hs).stop.flags rfl rfl id rfl rfl
      exact hw.session hclosed rfl rfl rfl rfl rfl rfl
  | unpairs i token =>
    obtain ⟨s, hs, h⟩ := Option.bind_eq_some_iff.1 h
    split at h
    · cases h
    · next hfresh =>
      split at h
      · obtain rfl := Option.some.inj h
        exact hw
      · next hopen =>
        obtain rfl := Option.some.inj h
        exact inv_unpair hw hs (by simpa using fun hclosed => hopen (.inl hclosed)) hfresh
  | works i ok =>
    obtain ⟨s, hs, h⟩ := Option.bind_eq_some_iff.1 h
    split at h
    · cases h
    · next task queue hqueue =>
      obtain rfl := Option.some.inj h
      exact inv_works hw hs hqueue hgood
  | ticks i update =>
    obtain ⟨s, hs, h⟩ := Option.bind_eq_some_iff.1 h
    split at h
    · next hticks =>
      obtain rfl := Option.some.inj h
      exact inv_ticks hw (hw.sessions i s hs) hticks.1 hticks.2.2 update
    · cases h
  | shows n => exact inv_shows hw h
  | answers n => exact inv_answers hw h
  | checks ok => exact inv_checks hw h
  | clears ok => exact inv_clears hw h
  | callsBack cleared => exact inv_callsBack hw h
  | finalizes ok => exact inv_finalizes hw h

theorem Inv.clears (hw : Inv w) : w.Clears := by
  intro label w' hgood h hmarked hleft
  have hkeeps : w'.store.marker = w.store.marker → w.cleared = true := fun hsame => by
    rw [← hsame, hleft] at hmarked
    cases hmarked
  cases label with
  | dies =>
    obtain rfl := Option.some.inj h
    exact hkeeps rfl
  | opens i =>
    simp only [step] at h
    split at h
    · obtain rfl := Option.some.inj h
      exact hkeeps rfl
    · cases h
  | starts i | stops i =>
    obtain ⟨s, _, rfl⟩ := Option.map_eq_some_iff.1 h
    exact hkeeps rfl
  | closes i =>
    obtain ⟨s, _, rfl⟩ := Option.map_eq_some_iff.1 h
    refine hkeeps ?_
    split <;> rfl
  | unpairs i token =>
    obtain ⟨s, _, h⟩ := Option.bind_eq_some_iff.1 h
    split at h
    · cases h
    · split at h
      · obtain rfl := Option.some.inj h
        exact hkeeps rfl
      · obtain rfl := Option.some.inj h
        refine hkeeps ?_
        unfold World.unpair World.begin
        cases w.job <;> rfl
  | works i ok =>
    obtain ⟨s, hs, h⟩ := Option.bind_eq_some_iff.1 h
    split at h
    · cases h
    · next task queue hqueue =>
      obtain rfl := Option.some.inj h
      have := work_marker hw hs hqueue hgood hmarked
      rw [hleft] at this
      cases this
  | ticks i update =>
    obtain ⟨s, _, h⟩ := Option.bind_eq_some_iff.1 h
    split at h
    · obtain rfl := Option.some.inj h
      exact hkeeps rfl
    · cases h
  | shows n =>
    simp only [step] at h
    split at h
    · obtain ⟨s, _, rfl⟩ := Option.map_eq_some_iff.1 h
      exact hkeeps rfl
    · obtain ⟨s, _, rfl⟩ := Option.map_eq_some_iff.1 h
      exact hkeeps rfl
    · cases h
  | answers n =>
    simp only [step] at h
    split at h
    · obtain ⟨s, _, rfl⟩ := Option.map_eq_some_iff.1 h
      exact hkeeps rfl
    · cases h
  | checks ok =>
    obtain ⟨job, _, h⟩ := Option.bind_eq_some_iff.1 h
    split at h
    · obtain rfl := Option.some.inj h
      refine hkeeps ?_
      split
      · rfl
      · split <;> rfl
    · cases h
  | clears ok | callsBack ok =>
    obtain ⟨job, _, h⟩ := Option.bind_eq_some_iff.1 h
    split at h
    · obtain rfl := Option.some.inj h
      refine hkeeps ?_
      split <;> rfl
    · cases h
  | finalizes ok =>
    obtain ⟨job, hjob, h⟩ := Option.bind_eq_some_iff.1 h
    split at h
    · next hphase => exact hw.finalizing job hjob hphase
    · cases h

end Steps

/-! ### The listeners -/

section Listeners

variable {w w' : World} {i : Nat} {s : Session} {job : Job}

/-- The listeners that were requested. -/
def World.requested (w : World) : List Nat :=
  w.called ++ (w.due.map (·.1.serial) ++ w.listening.elim [] Prod.snd)

/-- Every request is numbered once, and no callback is fired for one that is neither called nor due.
-/
structure Tracked (w : World) : Prop where
  nodup : w.requested.Nodup
  lt : ∀ n ∈ w.requested, n < w.next
  fired : ∀ n ∈ w.fired, n ∈ w.called ∨ n ∈ w.due.map (·.1.serial) ∨
    ∃ serials, w.listening = some (.finalizing, serials) ∧ n ∈ serials

theorem Tracked.same (h : Tracked w) (hcalled : w'.called = w.called) (hdue : w'.due = w.due)
    (hlistening : w'.listening = w.listening)
    (hnext : w'.next = w.next) (hfired : w'.fired = w.fired) : Tracked w' := by
  have hrequested : w'.requested = w.requested := by
    rw [World.requested, World.requested, hcalled, hdue, hlistening]
  refine ⟨hrequested ▸ h.nodup, ?_, ?_⟩
  · rw [hrequested, hnext]
    exact h.lt
  · rw [hfired, hcalled, hdue, hlistening]
    exact h.fired

theorem listening_of_job (hjob : w.job = some job) :
    w.listening = some (job.phase, job.listeners.map Listener.serial) := by
  rw [World.listening, hjob]
  rfl

theorem tracked_finish (h : Tracked w) (hjob : w.job = some job) (success : Bool) :
    Tracked (w.finish job success) := by
  have hlistening := listening_of_job hjob
  have hposted : (w.finish job success).due.map (·.1.serial) = w.due.map (·.1.serial) ++
      job.listeners.map Listener.serial := by
    rw [World.finish, List.map_append, List.map_map]
    rfl
  have hrequested : (w.finish job success).requested = w.requested := by
    rw [World.requested, World.requested, hlistening, hposted]
    exact congrArg (w.called ++ ·) (List.append_nil _)
  refine ⟨hrequested ▸ h.nodup, hrequested ▸ h.lt, fun n hn => ?_⟩
  rw [hposted]
  rcases h.fired n hn with hcalled | hdue | ⟨serials, heq, hmem⟩
  · exact .inl hcalled
  · exact .inr (.inl (List.mem_append_left _ hdue))
  · rw [hlistening] at heq
    obtain ⟨_, rfl⟩ := Prod.mk.inj (Option.some.inj heq)
    exact .inr (.inl (List.mem_append_right _ hmem))

theorem tracked_setPhase (h : Tracked w) (hjob : w.job = some job) (hphase : job.phase ≠ .finalizing)
    (phase : Phase) :
    Tracked (w.setPhase job phase) := by
  have hlistening := listening_of_job hjob
  have hrequested : (w.setPhase job phase).requested = w.requested := by
    rw [World.requested, World.requested, hlistening]
    rfl
  refine ⟨hrequested ▸ h.nodup, hrequested ▸ h.lt, fun n hn => ?_⟩
  refine (h.fired n hn).imp_right (Or.imp_right fun ⟨serials, heq, _⟩ => ?_)
  rw [hlistening] at heq
  exact absurd (Prod.mk.inj (Option.some.inj heq)).1 hphase

theorem tracked_request (h : Tracked w) (i : Nat) (token : Token) : Tracked (w.request i token) := by
  have hrequested : (w.request i token).requested = w.requested ++ [w.next] := by
    unfold World.requested World.listening World.request
    cases w.job with
    | none => simp
    | some job => simp
  refine ⟨?_, fun n hn => ?_, fun n hn => ?_⟩
  · rw [hrequested]
    refine h.nodup.append (List.nodup_singleton _) fun n hn hnext => ?_
    exact Nat.lt_irrefl _ (List.mem_singleton.1 hnext ▸ h.lt n hn)
  · rw [hrequested] at hn
    rcases List.mem_append.1 hn with hn | hn
    · exact Nat.lt_succ_of_lt (h.lt n hn)
    · exact List.mem_singleton.1 hn ▸ Nat.lt_succ_self _
  · have hgrows : ∀ {serials}, w.listening = some (.finalizing, serials) →
        (w.request i token).listening = some (.finalizing, serials ++ [w.next]) := fun {serials} heq => by
      unfold World.listening World.request at *
      cases hjob : w.job with
      | none =>
        rw [hjob] at heq
        cases heq
      | some job =>
        rw [hjob] at heq
        obtain ⟨hphase, rfl⟩ := Prod.mk.inj (Option.some.inj heq)
        simp [hphase]
    have hold : n ∈ w.fired → n ∈ w.called ∨ n ∈ w.due.map (·.1.serial) ∨
        ∃ serials, (w.request i token).listening = some (.finalizing, serials) ∧ n ∈ serials := fun hn =>
      (h.fired n hn).imp_right (Or.imp_right fun ⟨serials, heq, hmem⟩ =>
        ⟨_, hgrows heq, List.mem_append_left _ hmem⟩)
    change n ∈ if (w.job.getD _).phase = .finalizing then w.next :: w.fired else w.fired at hn
    split at hn
    · next hphase =>
      rcases List.mem_cons.1 hn with rfl | hn
      · cases hjob : w.job with
        | none =>
          rw [hjob] at hphase
          cases hphase
        | some job =>
          rw [hjob] at hphase
          have heq := listening_of_job hjob
          rw [show job.phase = .finalizing from hphase] at heq
          exact .inr (.inr ⟨_, hgrows heq, List.mem_append_right _ (List.mem_singleton_self _)⟩)
      · exact hold hn
    · exact hold hn

theorem tracked_unpair (h : Tracked w) (i : Nat) (s : Session) (token : Token) :
    Tracked (w.unpair i s token) := by
  unfold World.unpair World.begin
  cases hjob : w.job with
  | some job =>
    refine tracked_request ?_ i _
    exact h.same rfl rfl rfl rfl rfl
  | none =>
    refine tracked_request ?_ i _
    have hlistening : w.listening = none := by
      rw [World.listening, hjob]
      rfl
    have hrequested : w.requested = w.called ++ (w.due.map (·.1.serial) ++ []) := by
      rw [World.requested, hlistening]
      rfl
    have hnodup := h.nodup
    have hlt := h.lt
    rw [hrequested] at hnodup hlt
    refine ⟨hnodup, hlt, fun n hn => ?_⟩
    rcases h.fired n hn with hcalled | hdue | ⟨serials, heq, _⟩
    · exact .inl hcalled
    · exact .inr (.inl hdue)
    · rw [hlistening] at heq
      cases heq

theorem work_listening (i : Nat) (s : Session) (ok : Bool) (task : Task) :
    (work w i s ok task).called = w.called ∧ (work w i s ok task).due = w.due ∧
    (work w i s ok task).listening = w.listening ∧
      (work w i s ok task).next = w.next ∧ (work w i s ok task).fired = w.fired := by
  have hread : w.read.called = w.called ∧ w.read.due = w.due ∧ w.read.listening = w.listening ∧
    w.read.next = w.next ∧ w.read.fired = w.fired := by
    unfold World.read
    split <;> exact ⟨rfl, rfl, rfl, rfl, rfl⟩
  have hpersisted : ∀ (u : World) (token : Token) (b : Bool),
      (u.persisted token b).listening = u.listening := fun u token b => by
    unfold World.listening World.persisted
    cases u.job with
    | none => rfl
    | some job =>
      simp only [Option.map_some]
      split <;> rfl
  unfold work
  split
  · split
    · exact ⟨rfl, rfl, rfl, rfl, rfl⟩
    · dsimp only
      split
      · exact hread
      · exact ⟨rfl, rfl, rfl, rfl, rfl⟩
  · split <;> exact ⟨rfl, rfl, rfl, rfl, rfl⟩
  · split <;> exact ⟨rfl, rfl, rfl, rfl, rfl⟩
  · split <;> exact ⟨rfl, rfl, rfl, rfl, rfl⟩
  · split <;> exact ⟨rfl, rfl, rfl, rfl, rfl⟩
  · split
    · exact ⟨rfl, rfl, hpersisted _ _ _, rfl, rfl⟩
    · exact ⟨rfl, rfl, hpersisted _ _ _, rfl, rfl⟩

theorem tracked_answers (h : Tracked w) {n : Nat} (hstep : step w (.answers n) = some w') : Tracked w' := by
  simp only [step] at hstep
  split at hstep
  · next listener success hn =>
    obtain ⟨s, _, rfl⟩ := Option.map_eq_some_iff.1 hstep
    obtain ⟨hlt, hn⟩ := List.getElem?_eq_some_iff.1 hn
    have hperm : (listener.serial :: (w.due.eraseIdx n).map (·.1.serial)).Perm (w.due.map (·.1.serial)) := by
      have := (List.getElem_cons_eraseIdx_perm hlt).map (fun x : Listener × Bool => x.1.serial)
      rwa [hn] at this
    have hrequested : (listener.serial :: w.called ++
      ((w.due.eraseIdx n).map (·.1.serial) ++ w.listening.elim [] Prod.snd)).Perm
        w.requested := by
      refine List.Perm.trans ?_ ((hperm.append_right _).append_left w.called)
      exact List.perm_middle.symm
    refine ⟨hrequested.nodup_iff.2 h.nodup, fun m hm => h.lt m (hrequested.mem_iff.1 hm), fun m hm => ?_⟩
    rcases h.fired m hm with hcalled | hdue | hjob
    · exact .inl (List.mem_cons_of_mem _ hcalled)
    · rcases List.mem_cons.1 (hperm.mem_iff.2 hdue) with rfl | hdue
      · exact .inl (List.mem_cons_self ..)
      · exact .inr (.inl hdue)
    · exact .inr (.inr hjob)
  · cases hstep

theorem tracked_callsBack (h : Tracked w) {cleared : Bool} (hstep : step w (.callsBack cleared) = some w') :
    Tracked w' := by
  obtain ⟨job, hjob, hstep⟩ := Option.bind_eq_some_iff.1 hstep
  split at hstep
  · have hlistening := listening_of_job hjob
    obtain rfl := Option.some.inj hstep
    have hfired : ∀ n ∈ w.fired, n ∈ w.called ∨ n ∈ w.due.map (·.1.serial) ∨
        n ∈ job.listeners.map Listener.serial := fun n hn => by
      refine (h.fired n hn).imp_right (Or.imp_right fun ⟨serials, heq, hmem⟩ => ?_)
      rw [hlistening] at heq
      exact (Prod.mk.inj (Option.some.inj heq)).2 ▸ hmem
    have hall : ∀ n ∈ job.listeners.map Listener.serial ++ w.fired,
        n ∈ w.called ∨ n ∈ w.due.map (·.1.serial) ∨ n ∈ job.listeners.map Listener.serial := fun n hn =>
      (List.mem_append.1 hn).elim (fun hn => .inr (.inr hn)) (hfired n)
    have hnodup := h.nodup
    have hlt := h.lt
    unfold World.requested at hnodup hlt
    rw [hlistening] at hnodup hlt
    split
    · exact ⟨hnodup, hlt, fun n hn => (hall n hn).imp_right (Or.imp_right fun hmem => ⟨_, rfl, hmem⟩)⟩
    · have hposted : (w.due ++ job.listeners.map (·, false)).map (·.1.serial) =
          w.due.map (·.1.serial) ++ job.listeners.map Listener.serial := by
        rw [List.map_append, List.map_map]
        rfl
      have hrequested : w.called ++ ((w.due ++ job.listeners.map (·, false)).map (·.1.serial) ++ []) =
          w.called ++ (w.due.map (·.1.serial) ++ job.listeners.map Listener.serial) := by
            rw [hposted, List.append_nil]
      refine ⟨(congrArg List.Nodup hrequested).mpr hnodup, fun n hn => hlt n (hrequested ▸ hn),
        fun n hn => ?_⟩
      refine (hall n hn).imp_right fun hn => .inl ?_
      exact hposted ▸ List.mem_append.2 hn
  · cases hstep

theorem tracked_step {label : Label} (h : Tracked w) (hstep : step w label = some w') : Tracked w' := by
  cases label with
  | dies =>
    obtain rfl := Option.some.inj hstep
    exact ⟨List.nodup_nil, nofun, nofun⟩
  | opens i =>
    simp only [step] at hstep
    split at hstep
    · obtain rfl := Option.some.inj hstep
      exact h.same rfl rfl rfl rfl rfl
    · cases hstep
  | starts i | stops i =>
    obtain ⟨s, _, rfl⟩ := Option.map_eq_some_iff.1 hstep
    exact h.same rfl rfl rfl rfl rfl
  | closes i =>
    obtain ⟨s, _, rfl⟩ := Option.map_eq_some_iff.1 hstep
    split
    · exact h
    · exact h.same rfl rfl rfl rfl rfl
  | unpairs i token =>
    obtain ⟨s, _, hstep⟩ := Option.bind_eq_some_iff.1 hstep
    split at hstep
    · cases hstep
    · split at hstep
      · obtain rfl := Option.some.inj hstep
        exact h
      · obtain rfl := Option.some.inj hstep
        exact tracked_unpair h i s token
  | works i ok =>
    obtain ⟨s, _, hstep⟩ := Option.bind_eq_some_iff.1 hstep
    split at hstep
    · cases hstep
    · obtain rfl := Option.some.inj hstep
      obtain ⟨hcalled, hdue, hlistening, hnext, hfired⟩ := work_listening (w := w) i _ ok _
      exact h.same hcalled hdue hlistening hnext hfired
  | ticks i update =>
    obtain ⟨s, _, hstep⟩ := Option.bind_eq_some_iff.1 hstep
    split at hstep
    · obtain rfl := Option.some.inj hstep
      exact h.same rfl rfl rfl rfl rfl
    · cases hstep
  | shows n =>
    simp only [step] at hstep
    split at hstep
    · obtain ⟨s, _, rfl⟩ := Option.map_eq_some_iff.1 hstep
      refine tracked_request ?_ _ _
      exact h.same rfl rfl rfl rfl rfl
    · obtain ⟨s, _, rfl⟩ := Option.map_eq_some_iff.1 hstep
      exact h.same rfl rfl rfl rfl rfl
    · cases hstep
  | answers n => exact tracked_answers h hstep
  | checks ok =>
    obtain ⟨job, hjob, hstep⟩ := Option.bind_eq_some_iff.1 hstep
    split at hstep
    · next hphase _ =>
      obtain rfl := Option.some.inj hstep
      split
      · exact tracked_finish h hjob false
      · split
        · exact tracked_finish h hjob true
        · exact tracked_setPhase h hjob (by rw [hphase]; exact nofun) .posted
    · cases hstep
  | clears ok =>
    obtain ⟨job, hjob, hstep⟩ := Option.bind_eq_some_iff.1 hstep
    split at hstep
    · next hphase =>
      obtain rfl := Option.some.inj hstep
      split
      · exact tracked_setPhase h hjob (by rw [hphase]; exact nofun) .clearing
      · exact tracked_finish h hjob false
    · cases hstep
  | callsBack cleared => exact tracked_callsBack h hstep
  | finalizes ok =>
    obtain ⟨job, hjob, hstep⟩ := Option.bind_eq_some_iff.1 hstep
    split at hstep
    · obtain rfl := Option.some.inj hstep
      split
      · have hstore : Tracked { w with
            store := if w.store.marker = some job.token then { w.store with marker := none } else w.store } :=
          h.same rfl rfl rfl rfl rfl
        exact tracked_finish hstore hjob true
      · exact tracked_finish h hjob false
    · cases hstep

theorem Tracked.heard (h : Tracked w) : w.Heard := ⟨(List.nodup_append.1 h.nodup).1, h.fired⟩

end Listeners

/-! ### Unpairing is final -/

theorem inv_init {store : Saved} (hmarker : store.marker = none) (hfresh : Fresh 0 store) :
    Inv (.init store) where
  sessions _ _ := nofun
  owner _ _ := nofun
  fresh := hfresh
  marked h := by
    rw [World.init, hmarker] at h
    cases h
  waiting _ := nofun
  finalizing _ := nofun

theorem tracked_init (store : Saved) : Tracked (.init store) := ⟨List.nodup_nil, nofun, nofun⟩

/-- In an undisturbed run nothing from before a reset is in the store, the marker leaves it once the
sessions are cleared, and the listeners are heard. -/
theorem unpair_final {store : Saved} (hmarker : store.marker = none) (hfresh : Fresh 0 store)
    {labels : List Label} {w : World}
    (h : run step (.init store) labels = some w) (hgood : Along step Undisturbed (.init store) labels) :
    Fresh w.markers.length w.store ∧ w.Clears ∧ w.Heard := by
  have hw : Inv w := hgood.inv (fun _ _ _ hgood h hw => inv_step hw hgood h) h (inv_init hmarker hfresh)
  have htracked : Tracked w := run_inv (fun _ _ _ h hw => tracked_step hw h) h (tracked_init store)
  exact ⟨hw.fresh, hw.clears, htracked.heard⟩

theorem undisturbed_unmarked {w : World} {label : Label} (h : w.markers = []) : Undisturbed w label := by
  have hrevives : ∀ s generation, ¬ Revives w s generation := fun s generation ⟨⟨t, _, hmem⟩, _⟩ => by
    rw [h] at hmem
    cases hmem
  unfold Undisturbed
  split
  · intro s _ task _
    split
    · exact hrevives _ _
    · exact fun _ _ => hrevives _ _
    · exact trivial
  · exact trivial

def empty : Saved := ⟨none, none, none, none⟩

/-- A display is paired and unpaired. -/
def paired : List Label :=
  [.opens 0, .starts 0, .works 0 true, .works 0 true, .works 0 true, .works 0 true,
    .ticks 0 .initiates, .works 0 true,
    .ticks 0 .claims, .works 0 true, .unpairs 0 7, .works 0 true, .works 0 true, .checks true,
      .clears true, .callsBack true,
    .finalizes true, .answers 0]

theorem unpair_final_paired : ∃ w, run step (.init empty) paired = some w ∧ w.called = [0] ∧
    Fresh w.markers.length w.store ∧ w.Clears ∧ w.Heard := by
  have hempty : Fresh 0 empty :=
    ⟨fun _ h => absurd h (by simp [empty]), fun _ h => absurd h (by simp [empty]),
    fun _ h => absurd h (by simp [empty])⟩
  refine ⟨_, rfl, rfl, unpair_final rfl hempty (show run step (.init empty) paired = _ from rfl) ?_⟩
  have h {w : World} {label : Label} : w.markers = [] → Undisturbed w label := undisturbed_unmarked
  exact ⟨h rfl, h rfl, h rfl, h rfl, h rfl, h rfl, h rfl, h rfl, h rfl, h rfl, h rfl, h rfl, h rfl,
    trivial, trivial, trivial, trivial, trivial, trivial⟩

/-- One session reads the store between another's reset and its marker, and is stopped when the
reset's end starts it. -/
def reenrolled : List Label :=
  [.opens 0, .opens 1, .starts 0, .works 0 true, .works 0 true, .works 0 true, .works 0 true,
    .starts 1, .unpairs 0 7,
    .works 1 true, .works 1 true, .works 0 true, .works 0 true, .shows 0, .checks true, .clears true,
      .callsBack true,
    .finalizes true, .answers 1, .stops 1, .works 1 true, .works 1 true]

theorem identity_restored : ∃ w, run step (.init { empty with identity := some 0 }) reenrolled = some w ∧
    w.markers = [7] ∧ ¬ Fresh w.markers.length w.store := by
  refine ⟨_, rfl, rfl, fun h => ?_⟩
  exact absurd (h.identity 0 rfl) (by decide)

end AndroidReset
