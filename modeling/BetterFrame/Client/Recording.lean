import BetterFrame.Client.KioskBundle
import BetterFrame.Lib.Run

/-!
# Recording and viewing

`sync_simple_vms` and `operator_media_session_handler` of `local_server.rs`, which configure the
paths of MediaMTX, call by call. `recording_kept` says when viewing and failed calls leave a
recording alone.
-/

namespace Recording

abbrev Config := List (String × Json)

/-- The URL library and the decryption of the bundle's credentials. -/
structure Env where
  inject_rtsp_credentials : String → Option String → Option String → String
  decrypt_cluster_public : String → String → Option String

/-! ### Paths and their configurations -/

def safeId (camera_id : String) : List Char := camera_id.toList.filter Char.isAlphanum

def media_path_name (camera_id stream : String) : String :=
  String.ofList ('b' :: 'f' :: '_' :: (safeId camera_id ++ '_' :: stream.toList))

variable (env : Env)

/-- The camera's address with the credentials the key decrypts. -/
def sourceOf (key : Option String) (camera : BundleCamera) (uri : String) : String :=
  let password := camera.playback_password_encrypted.bind fun encrypted =>
    key.bind (env.decrypt_cluster_public encrypted)
  env.inject_rtsp_credentials uri camera.playback_username password

/-- A path that pulls its source on demand. -/
def viewConfig (source : String) : Config :=
  [("source", .str source), ("sourceOnDemand", .bool true), ("sourceOnDemandCloseAfter", .str "10s")]

def RECORD_KEYS : List String :=
  ["recordFormat", "recordPartDuration", "recordMaxPartSize", "recordSegmentDuration", "recordDeleteAfter"]

/-- The recording options among the given ones, over the configuration. -/
def insertOptions (config : Config) (options : Json) : Config :=
  RECORD_KEYS.foldl (fun config key => match Json.get? key options with
    | some value => Json.assign config key value
    | none => config) config

/-- The storage directory without trailing slashes. -/
def storage (bundle : KioskBundle) : String :=
  let path := bundle.operator_console.simple_vms.storage_path.getD "/var/lib/betterframe/recordings"
  String.ofList (path.toList.reverse.dropWhile (· = '/')).reverse

/-- A path that records: the bundle's settings, then the camera's own. -/
def recordConfig (bundle : KioskBundle) (camera : BundleCamera) (source : String) : Config :=
  [bundle.operator_console.simple_vms.settings, camera.recording_config].foldl insertOptions
    [("source", .str source), ("sourceOnDemand", .bool false), ("record", .bool true),
      ("recordPath", .str (storage bundle ++ "/%path/%Y-%m-%d_%H-%M-%S-%f"))]

/-- `recording_config.get("record")` is not `false`. -/
def records (camera : BundleCamera) : Bool :=
  match Json.get? "record" camera.recording_config with
  | some (.bool false) => false
  | _ => camera.enabled && camera.simple_vms_managed

/-- The cameras that a bundle has recorded, each with the stream that it is recorded from. -/
def recorded (bundle : KioskBundle) : List (BundleCamera × String) :=
  if bundle.operator_console.simple_vms.enabled then
    bundle.cameras.filterMap fun camera =>
      if records camera then (camera.pick_stream (some "main") 1).map fun (uri, _) => (camera, uri) else none
  else []

/-- The path names of the cameras to record. -/
def recordedNames (bundle : KioskBundle) : List String :=
  (recorded bundle).map fun c => media_path_name c.1.id "main"

/-- The paths that a sync configures. -/
def recordings (key : Option String) (bundle : KioskBundle) : List (String × Config) :=
  (recorded bundle).map fun (camera, uri) =>
    (media_path_name camera.id "main", recordConfig bundle camera (sourceOf env key camera uri))

/-- The path that an operator's request configures, unless it is refused. -/
def view (key : Option String) (bundle : KioskBundle) (camera_id stream : String) :
    Option (String × Config) :=
  if stream = "main" ∨ stream = "sub" then
    (bundle.cameras.find? fun camera => camera.id = camera_id && camera.enabled &&
          camera.simple_vms_managed).bind fun camera =>
      (camera.pick_stream (some stream) (if stream = "main" then 1 else 0)).map fun (uri, _) =>
        (media_path_name camera.id stream, viewConfig (sourceOf env key camera uri))
  else none

/-! ### MediaMTX -/

/-- The media server's configured paths. -/
abbrev Paths := String → Option Config

def Paths.set (paths : Paths) (name : String) (config : Option Config) : Paths :=
  fun n => if n = name then config else paths n

/-- A call to the API of the media server. -/
inductive Call where
  | add (name : String) (config : Config)
  | patch (name : String) (config : Config)
  | delete (name : String)

/-- What a call makes of the paths, unless it is refused. -/
def Call.effect (paths : Paths) : Call → Option Paths
  | .add name config => if (paths name).isSome then none else some (paths.set name (some config))
  | .patch name config => (paths name).map fun old => paths.set name (some (Json.merge old config))
  | .delete name => (paths name).map fun _ => paths.set name none

/-- Where `add` was refused, the path is there to be patched. -/
def attempt (refused : Bool) (name : String) (config : Config) : Call :=
  if refused then .patch name config else .add name config

/-- A call may fail with a status and no effect, or without an answer, whether or not it took effect. -/
inductive Answer where
  | served
  | failed
  | lost (applied : Bool)
deriving DecidableEq

/-- How a call is answered: with success, with another status, or not at all. -/
inductive Reply where
  | success
  | status
  | error
deriving DecidableEq

/-- The paths after a request, when it took effect. -/
def Answer.taken (effect : Option Paths) : Answer → Option Paths
  | .served | .lost true => effect
  | .failed | .lost false => none

/-- What the client sees of a request. -/
def Answer.reply (effect : Option Paths) : Answer → Reply
  | .served => if effect.isSome then .success else .status
  | .failed => .status
  | .lost _ => .error

/-! ### Runs -/

/-- A task is between two calls. `refused` says that `add` was, so that `patch` comes next. -/
inductive Task where
  | view (name : String) (config : Config) (refused : Bool)
  | sync (bundle : KioskBundle) (todo : List (String × Config)) (refused : Bool) (desired : List String)
  | delete (bundle : KioskBundle) (stale desired : List String)

/-- `configured` are the names of the paths that have been configured, `current` is the bundle of
the last sync until a sync of another bundle begins, `seen` are the ids of the cameras of all
bundles so far, and `faulty` the syncs whose last call for some path has not succeeded. -/
structure State where
  paths : Paths
  active : List String
  tasks : List (Nat × Task)
  configured : List String
  current : Option KioskBundle
  seen : List String
  faulty : List Nat

/-- A step: a sync or a view begins, or the one with that number makes its next call or goes on. -/
inductive Label where
  | syncs (id : Nat) (key : Option String) (bundle : KioskBundle)
  | views (id : Nat) (key : Option String) (bundle : KioskBundle) (camera_id stream : String)
  | calls (id : Nat) (answer : Answer)
  | proceeds (id : Nat)

def ids (bundle : KioskBundle) : List String := bundle.cameras.map (·.id)

namespace State

variable (s : State)

def init (paths : Paths) : State := ⟨paths, [], [], [], none, [], []⟩

/-- The running task of the id. -/
def task? (id : Nat) : Option Task := (s.tasks.find? (·.1 = id)).map Prod.snd

def drop (id : Nat) : State := { s with tasks := s.tasks.filter (·.1 ≠ id) }

def put (id : Nat) (task : Task) : State := { s with tasks := (id, task) :: s.tasks.filter (·.1 ≠ id) }

/-- The path as an answered configuration leaves it. -/
def configure (call : Call) (name : String) (answer : Answer) : State :=
  match answer.taken (call.effect s.paths) with
  | some paths => { s with paths, configured := name :: s.configured }
  | none => s

/-- The path as an answered deletion leaves it. -/
def delete (name : String) (answer : Answer) : State :=
  match answer.taken ((Call.delete name).effect s.paths) with
  | some paths => { s with paths }
  | none => s

/-- One request of a task, answered. -/
def call (id : Nat) (answer : Answer) : Task → Option State
  | .view name config refused =>
    let call := attempt refused name config
    match refused, answer.reply (call.effect s.paths) with
    | false, .status => some ((s.configure call name answer).put id (.view name config true))
    | _, _ => some ((s.configure call name answer).drop id)
  | .sync bundle ((name, config) :: todo) refused desired =>
    let call := attempt refused name config
    match refused, answer.reply (call.effect s.paths) with
    | _, .success => some ((s.configure call name answer).put id (.sync bundle todo false (name :: desired)))
    | false, .status =>
      some ((s.configure call name answer).put id (.sync bundle ((name, config) :: todo) true desired))
    | _, _ =>
      some ({ s.configure call name answer with faulty := id :: s.faulty }.put id
        (.sync bundle todo false desired))
  | .sync _ [] _ _ => none
  | .delete bundle (name :: stale) desired =>
    some ((s.delete name answer).put id (.delete bundle stale desired))
  | .delete _ [] _ => none

/-- `VMS_PATHS` is locked from the reading of the tracked names to their replacement. -/
def locked : Bool := s.tasks.any fun t => match t.2 with
  | .delete .. => true
  | _ => false

/-- A task at the end of its list: the lock, the stale paths, the new active set. -/
def proceed (id : Nat) : Task → Option State
  | .sync bundle [] _ desired =>
    if s.locked then none else some (s.put id (.delete bundle (s.active.filter (· ∉ desired)) desired))
  | .delete bundle [] desired => some ({ s with active := desired, current := some bundle }.drop id)
  | _ => none

end State

def step (s : State) : Label → Option State
  | .syncs id key bundle =>
    if (s.task? id).isSome then none
    else some ({ s with
      current := if s.current = some bundle then s.current else none
      seen := ids bundle ++ s.seen
      faulty := s.faulty.filter (· ≠ id) }.put id (.sync bundle (recordings env key bundle) false []))
  | .views id key bundle camera_id stream =>
    if (s.task? id).isSome then none
    else
      let s := { s with seen := ids bundle ++ s.seen }
      match view env key bundle camera_id stream with
      | some (name, config) => some (s.put id (.view name config false))
      | none => some s
  | .calls id answer => (s.task? id).bind (s.call id answer)
  | .proceeds id => (s.task? id).bind (s.proceed id)

/-! ### Recordings -/

/-- The configuration records, whether anyone watches or not. -/
def Records (config : Config) : Prop :=
  Json.get? "record" (.obj config) = some (.bool true) ∧
    Json.get? "sourceOnDemand" (.obj config) = some (.bool false)

def State.IsRecording (s : State) (name : String) : Prop := ∃ config, s.paths name = some config ∧
  Records config

/-- The cameras that the last sync's bundle has recorded are recorded, if their paths were ever
configured, and paths belong to one camera. -/
structure Kept (s : State) : Prop where
  recording : ∀ bundle ∈ s.current, ∀ name ∈ recordedNames bundle, name ∈ s.configured → s.IsRecording name
  distinct : ∀ id ∈ s.seen, ∀ id' ∈ s.seen, id ≠ id' → ∀ stream ∈ ["main", "sub"],
    ∀ stream' ∈ ["main", "sub"], media_path_name id stream ≠ media_path_name id' stream'

/-- The paths that a task of a sync is done with. -/
def Task.Done (name : String) : Task → Prop
  | .view .. => False
  | .sync bundle todo _ _ => name ∈ recordedNames bundle ∧ name ∉ todo.map Prod.fst
  | .delete bundle _ _ => name ∈ recordedNames bundle

/-- The path is of a camera that the last sync's bundle has recorded, or a running sync is done with it. -/
def State.Due (s : State) (name : String) : Prop :=
  (∃ bundle ∈ s.current, name ∈ recordedNames bundle) ∨ ∃ t ∈ s.tasks, t.2.Done name

/-- The bundle of a running sync. -/
def Task.bundle? : Task → Option KioskBundle
  | .view .. => none
  | .sync bundle _ _ _ => some bundle
  | .delete bundle _ _ => some bundle

/-- Both bundles record the same paths. -/
def SamePaths (b c : KioskBundle) : Prop := ∀ name, name ∈ recordedNames b ↔ name ∈ recordedNames c

/-- The call is the last one that a sync makes for the path, and does not succeed. -/
def GivesUp (refused : Bool) (answer : Answer) (effect : Option Paths) : Prop :=
  answer.reply effect ≠ .success ∧ (refused = false → answer.reply effect = .error)

/-- The ids of the bundle's cameras differ from each other and from earlier ones in letters and digits. -/
def Legible (s : State) (bundle : KioskBundle) : Prop :=
  ∀ id ∈ ids bundle, ∀ id' ∈ ids bundle ++ s.seen, safeId id = safeId id' → id = id'

/-- No request configures a path that is due. A sync begins only while those that are running record
the same paths and have given up none. A sync gives up a path only while it is the only one running,
the path is not tracked, and, unless the call has effect, the path was never configured or is
recording. -/
def Harmless (s : State) : Label → Prop
  | .syncs _ _ bundle =>
    Legible s bundle ∧ ∀ t ∈ s.tasks, ∀ running ∈ t.2.bundle?, t.1 ∉ s.faulty ∧ SamePaths running bundle
  | .views _ _ bundle _ _ => Legible s bundle
  | .calls id answer => ∀ task ∈ s.task? id, match task with
    | .view name config refused =>
      s.Due name → answer.taken ((attempt refused name config).effect s.paths) = none
    | .sync _ ((name, config) :: _) refused _ =>
      GivesUp refused answer ((attempt refused name config).effect s.paths) →
        (∀ t ∈ s.tasks, t.1 ≠ id → t.2.bundle? = none) ∧ name ∉ s.active ∧
          (answer.taken ((attempt refused name config).effect s.paths) = none → name ∈ s.configured →
            s.IsRecording name)
    | _ => True
  | .proceeds _ => True

/-! ### One call -/

variable {env : Env} {s s' : State}

theorem map_recordings (key : Option String) (bundle : KioskBundle) :
    (recordings env key bundle).map Prod.fst = recordedNames bundle := by
  simp [recordings, recordedNames, List.map_map, Function.comp_def]

theorem get?_insertOptions {config : Config} {options : Json} {k : String} (hk : k ∉ RECORD_KEYS) :
    Json.get? k (.obj (insertOptions config options)) = Json.get? k (.obj config) := by
  unfold insertOptions
  generalize RECORD_KEYS = keys at hk
  induction keys generalizing config with
  | nil => rfl
  | cons key keys ih =>
    rw [List.mem_cons, not_or] at hk
    rw [List.foldl_cons, ih hk.2]
    split
    · exact Json.get?_assign_of_ne hk.1
    · rfl

/-- The options of a bundle or a camera leave recording on. -/
theorem records_recordConfig (bundle : KioskBundle) (camera : BundleCamera) (source : String) :
    Records (recordConfig bundle camera source) := by
  unfold recordConfig
  simp only [List.foldl_cons, List.foldl_nil]
  refine ⟨?_, ?_⟩
  · rw [get?_insertOptions (by decide), get?_insertOptions (by decide)]
    rfl
  · rw [get?_insertOptions (by decide), get?_insertOptions (by decide)]
    rfl

theorem Records.merge {config : Config} (h : Records config) (old : Config) :
    Records (Json.merge old config) := by
  refine ⟨?_, ?_⟩
  · rw [Json.get?_merge, h.1, Option.some_or]
  · rw [Json.get?_merge, h.2, Option.some_or]

theorem Answer.taken_some {answer : Answer} {effect : Option Paths} {paths : Paths}
    (h : answer.taken effect = some paths) :
    effect = some paths := by
  cases answer with
  | served => exact h
  | failed => cases h
  | lost applied => cases applied <;> first | exact h | cases h

/-- A path that is added or patched has the options of the call. -/
theorem attempt_effect {refused : Bool} {name : String} {config : Config} {paths paths' : Paths}
    (h : (attempt refused name config).effect paths = some paths') :
    (∀ n, n ≠ name → paths' n = paths n) ∧ ∃ old, paths' name = some (Json.merge old config) ∨
    paths' name = some config := by
  cases refused with
  | false =>
    simp only [attempt, Bool.false_eq_true, if_false, Call.effect] at h
    split at h
    · cases h
    · obtain rfl := Option.some.inj h
      exact ⟨fun n hn => if_neg hn, [], .inr (if_pos rfl)⟩
  | true =>
    simp only [attempt, if_true, Call.effect] at h
    obtain ⟨old, -, rfl⟩ := Option.map_eq_some_iff.1 h
    exact ⟨fun n hn => if_neg hn, old, .inl (if_pos rfl)⟩

theorem delete_effect {name : String} {paths paths' : Paths}
    (h : (Call.delete name).effect paths = some paths') :
    ∀ n, n ≠ name → paths' n = paths n := by
  obtain ⟨old, -, rfl⟩ := Option.map_eq_some_iff.1 h
  exact fun n hn => if_neg hn

/-- What a call to configure a path leaves of the others. -/
theorem configure_frame {refused : Bool} {name : String} {config : Config} {answer : Answer}
    {n : String} (hn : n ≠ name) :
    (s.configure (attempt refused name config) name answer).paths n = s.paths n ∧
      (n ∈ (s.configure (attempt refused name config) name answer).configured → n ∈ s.configured) := by
  unfold State.configure
  split
  · next paths h =>
    refine ⟨(attempt_effect (Answer.taken_some h)).1 n hn, fun hmem => ?_⟩
    exact (List.mem_cons.1 hmem).resolve_left hn
  · exact ⟨rfl, id⟩

theorem configure_of_none {call : Call} {name : String} {answer : Answer}
    (h : answer.taken (call.effect s.paths) = none) :
    s.configure call name answer = s := by
  unfold State.configure
  rw [h]

/-- A call of a sync that takes effect leaves the path recording. -/
theorem configure_records {refused : Bool} {name : String} {config : Config} {answer : Answer}
    (hconfig : Records config)
    (h : answer.taken ((attempt refused name config).effect s.paths) ≠ none) :
    (s.configure (attempt refused name config) name answer).IsRecording name := by
  obtain ⟨paths, hpaths⟩ := Option.ne_none_iff_exists'.1 h
  unfold State.configure
  rw [hpaths]
  obtain ⟨-, old, hold | hnew⟩ := attempt_effect (Answer.taken_some hpaths)
  · exact ⟨_, hold, hconfig.merge old⟩
  · exact ⟨_, hnew, hconfig⟩

theorem taken_of_success {answer : Answer} {effect : Option Paths} (h : answer.reply effect = .success) :
    answer.taken effect ≠ none := by
  cases answer with
  | served =>
    cases effect with
    | none => cases h
    | some paths => simp [Answer.taken]
  | failed => cases h
  | lost applied => cases h

/-! ### Tasks -/

@[simp] theorem configure_tasks {call : Call} {name : String} {answer : Answer} :
    (s.configure call name answer).tasks = s.tasks := by
  unfold State.configure
  split <;> rfl

@[simp] theorem configure_current {call : Call} {name : String} {answer : Answer} :
    (s.configure call name answer).current = s.current := by
  unfold State.configure
  split <;> rfl

@[simp] theorem configure_active {call : Call} {name : String} {answer : Answer} :
    (s.configure call name answer).active = s.active := by
  unfold State.configure
  split <;> rfl

@[simp] theorem configure_faulty {call : Call} {name : String} {answer : Answer} :
    (s.configure call name answer).faulty = s.faulty := by
  unfold State.configure
  split <;> rfl

@[simp] theorem configure_seen {call : Call} {name : String} {answer : Answer} :
    (s.configure call name answer).seen = s.seen := by
  unfold State.configure
  split <;> rfl

theorem mem_of_task? {id : Nat} {task : Task} (h : s.task? id = some task) : (id, task) ∈ s.tasks := by
  obtain ⟨t, ht, rfl⟩ := Option.map_eq_some_iff.1 h
  have hid := List.find?_some ht
  obtain rfl := of_decide_eq_true hid
  exact List.mem_of_find?_eq_some ht

@[simp] theorem delete_tasks {name : String} {answer : Answer} : (s.delete name answer).tasks = s.tasks := by
  unfold State.delete
  split <;> rfl

theorem due_drop {id : Nat} {name : String} (h : (s.drop id).Due name) : s.Due name := by
  rcases h with hcurrent | ⟨t, ht, hdone⟩
  · exact .inl hcurrent
  · exact .inr ⟨t, List.mem_of_mem_filter ht, hdone⟩

theorem due_put {id : Nat} {task : Task} {name : String} (h : (s.put id task).Due name) :
    s.Due name ∨ task.Done name := by
  rcases h with hcurrent | ⟨t, ht, hdone⟩
  · exact .inl (.inl hcurrent)
  · rcases List.mem_cons.1 ht with rfl | ht
    · exact .inr hdone
    · exact .inl (.inr ⟨t, List.mem_of_mem_filter ht, hdone⟩)

theorem due_configure {call : Call} {name n : String} {answer : Answer} :
    (s.configure call name answer).Due n ↔ s.Due n := by
  unfold State.Due
  rw [configure_tasks, configure_current]

/-- The paths a sync has still to configure. -/
def Task.todo : Task → List (String × Config)
  | .sync _ todo _ _ => todo
  | _ => []

/-- The paths that are due record, and what is still to be configured will. -/
structure Inv (s : State) : Prop where
  due : ∀ name, s.Due name → name ∈ s.configured → s.IsRecording name
  todo : ∀ t ∈ s.tasks, ∀ e ∈ t.2.todo, Records e.2
  distinct : ∀ id ∈ s.seen, ∀ id' ∈ s.seen, safeId id = safeId id' → id = id'

/-- What a sync has not given up is still to be configured or desired, what it has given up is not
tracked, and it deletes none of its own paths. -/
def Task.Holds (faulty : Prop) (active : List String) : Task → Prop
  | .view .. => True
  | .sync bundle todo _ desired =>
    ∀ name ∈ recordedNames bundle, name ∈ todo.map Prod.fst ∨ name ∈ desired ∨ faulty ∧ name ∉ active
  | .delete bundle stale _ => ∀ name ∈ stale, name ∉ recordedNames bundle

/-- The running syncs and the last one record the same paths, and one that has given up a path runs alone. -/
structure Apart (s : State) : Prop where
  agree : ∀ t ∈ s.tasks, ∀ b ∈ t.2.bundle?,
    (∀ c ∈ s.current, SamePaths b c) ∧ ∀ u ∈ s.tasks, ∀ c ∈ u.2.bundle?, SamePaths b c
  alone : ∀ t ∈ s.tasks, t.1 ∈ s.faulty → t.2.bundle?.isSome → ∀ u ∈ s.tasks, u.2.bundle?.isSome → u.1 = t.1
  holds : ∀ t ∈ s.tasks, t.2.Holds (t.1 ∈ s.faulty) s.active

theorem Task.Done.bundle {name : String} {task : Task} (h : task.Done name) :
    ∃ b ∈ task.bundle?, name ∈ recordedNames b := by
  cases task with
  | view => exact h.elim
  | sync bundle todo refused desired => exact ⟨bundle, rfl, h.1⟩
  | delete bundle stale desired => exact ⟨bundle, rfl, h⟩

/-- A sync deletes no path that is due. -/
theorem Apart.not_due (h : Apart s) {id : Nat} {bundle : KioskBundle} {stale desired : List String}
    {name : String}
    (ht : (id, .delete bundle stale desired) ∈ s.tasks) (hname : name ∈ stale) : ¬ s.Due name := by
  intro hdue
  obtain ⟨hcurrent, htasks⟩ := h.agree _ ht bundle rfl
  refine h.holds _ ht name hname ?_
  rcases hdue with ⟨c, hc, hmem⟩ | ⟨u, hu, hdone⟩
  · exact (hcurrent c hc name).2 hmem
  · obtain ⟨c, hc, hmem⟩ := hdone.bundle
    exact (htasks u hu c hc name).2 hmem

theorem Apart.configure (h : Apart s) {call : Call} {name : String} {answer : Answer} :
    Apart (s.configure call name answer) := by
  unfold State.configure
  split
  · exact ⟨h.agree, h.alone, h.holds⟩
  · exact h

theorem Apart.delete (h : Apart s) {name : String} {answer : Answer} : Apart (s.delete name answer) := by
  unfold State.delete
  split
  · exact ⟨h.agree, h.alone, h.holds⟩
  · exact h

theorem Apart.drop (h : Apart s) {id : Nat} : Apart (s.drop id) where
  agree t ht b hb :=
    have ⟨hcurrent, htasks⟩ := h.agree t (List.mem_of_mem_filter ht) b hb
    ⟨hcurrent, fun u hu => htasks u (List.mem_of_mem_filter hu)⟩
  alone t ht hfaulty hsync u hu :=
    h.alone t (List.mem_of_mem_filter ht) hfaulty hsync u (List.mem_of_mem_filter hu)
  holds t ht := h.holds t (List.mem_of_mem_filter ht)

/-- A task goes on, with the bundle that it had. -/
theorem Apart.put (h : Apart s) {id : Nat} {task : Task}
    (hbundle : ∀ b ∈ task.bundle?, ∃ old, (id, old) ∈ s.tasks ∧ old.bundle? = some b)
    (hholds : task.Holds (id ∈ s.faulty) s.active) : Apart (s.put id task) := by
  have hmem : ∀ t ∈ (s.put id task).tasks, ∀ b ∈ t.2.bundle?, ∃ old ∈ s.tasks, old.1 = t.1 ∧
      old.2.bundle? = some b := by
    intro t ht b hb
    rcases List.mem_cons.1 ht with rfl | ht
    · obtain ⟨old, hold, heq⟩ := hbundle b hb
      exact ⟨_, hold, rfl, heq⟩
    · exact ⟨t, List.mem_of_mem_filter ht, rfl, hb⟩
  refine ⟨fun t ht b hb => ?_, fun t ht hfaulty hsync u hu husync => ?_, fun t ht => ?_⟩
  · obtain ⟨old, hold, -, heq⟩ := hmem t ht b hb
    obtain ⟨hcurrent, htasks⟩ := h.agree old hold b heq
    refine ⟨hcurrent, fun u hu c hc => ?_⟩
    obtain ⟨old', hold', -, heq'⟩ := hmem u hu c hc
    exact htasks old' hold' c heq'
  · obtain ⟨b, hb⟩ := Option.isSome_iff_exists.1 hsync
    obtain ⟨c, hc⟩ := Option.isSome_iff_exists.1 husync
    obtain ⟨old, hold, hid, heq⟩ := hmem t ht b hb
    obtain ⟨old', hold', hid', heq'⟩ := hmem u hu c hc
    rw [← hid, ← hid']
    exact h.alone old hold (hid ▸ hfaulty) (by simp [heq]) old' hold' (by simp [heq'])
  · rcases List.mem_cons.1 ht with rfl | ht
    · exact hholds
    · exact h.holds t (List.mem_of_mem_filter ht)

/-- A sync that runs alone gives up a path that is not tracked. -/
theorem Apart.giveUp (h : Apart s) {id : Nat} {bundle : KioskBundle} {name : String} {config : Config}
    {todo : List (String × Config)} {refused : Bool} (refused' : Bool) {desired : List String}
    (ht : (id, .sync bundle ((name, config) :: todo) refused desired) ∈ s.tasks)
    (halone : ∀ t ∈ s.tasks, t.1 ≠ id → t.2.bundle? = none) (hname : name ∉ s.active) :
    Apart ({ s with faulty := id :: s.faulty }.put id (.sync bundle todo refused' desired)) := by
  have hothers : ∀ t ∈ s.tasks.filter (·.1 ≠ id), t.2.bundle? = none := fun t ht =>
    halone t (List.mem_of_mem_filter ht) (by simpa using (List.mem_filter.1 ht).2)
  have hviews : ∀ t ∈ s.tasks.filter (·.1 ≠ id), ∀ {P : Prop} {active : List String}, t.2.Holds P active := by
    intro t ht
    have hnone := hothers t ht
    obtain ⟨n, task⟩ := t
    cases task with
    | view => exact fun {_ _} => trivial
    | sync => cases hnone
    | delete => cases hnone
  obtain ⟨hcurrent, htasks⟩ := h.agree _ ht bundle rfl
  refine ⟨fun t ht' b hb => ?_, fun t ht' hfaulty hsync u hu husync => ?_, fun t ht' => ?_⟩
  · rcases List.mem_cons.1 ht' with rfl | ht'
    · obtain rfl := Option.some.inj hb
      refine ⟨hcurrent, fun u hu c hc => ?_⟩
      rcases List.mem_cons.1 hu with rfl | hu
      · obtain rfl := Option.some.inj hc
        exact fun _ => Iff.rfl
      · rw [hothers u hu] at hc
        cases hc
    · rw [hothers t ht'] at hb
      cases hb
  · have hid : ∀ v ∈ ({ s with faulty := id :: s.faulty }.put id (.sync bundle todo refused' desired)).tasks,
        v.2.bundle?.isSome → v.1 = id := by
      intro v hv hsome
      rcases List.mem_cons.1 hv with rfl | hv
      · rfl
      · rw [hothers v hv] at hsome
        cases hsome
    exact (hid u hu husync).trans (hid t ht' hsync).symm
  · rcases List.mem_cons.1 ht' with rfl | ht'
    · intro n hn
      rcases h.holds _ ht n hn with htodo | hdesired | ⟨-, hactive⟩
      · rcases List.mem_cons.1 htodo with rfl | htodo
        · exact .inr (.inr ⟨List.mem_cons_self, hname⟩)
        · exact .inl htodo
      · exact .inr (.inl hdesired)
      · exact .inr (.inr ⟨List.mem_cons_self, hactive⟩)
    · exact hviews t ht'

/-- What a sync goes on with after a call. -/
theorem call_sync {id : Nat} {bundle : KioskBundle} {name : String} {config : Config}
    {todo : List (String × Config)} {refused : Bool} {desired : List String} {answer : Answer}
    (hs : s.call id answer (.sync bundle ((name, config) :: todo) refused desired) = some s') :
    (answer.reply ((attempt refused name config).effect s.paths) = .success ∧
      s' = (s.configure (attempt refused name config) name answer).put id
      (.sync bundle todo false (name :: desired))) ∨
    s' = (s.configure (attempt refused name config) name answer).put id
    (.sync bundle ((name, config) :: todo) true desired) ∨
    GivesUp refused answer ((attempt refused name config).effect s.paths) ∧
      s' = { s.configure (attempt refused name config) name answer with faulty := id :: s.faulty }.put id
        (.sync bundle todo false desired) := by
  simp only [State.call] at hs
  split at hs
  · next hreply => exact .inl ⟨hreply, (Option.some.inj hs).symm⟩
  · exact .inr (.inl (Option.some.inj hs).symm)
  · next hsuccess hstatus =>
    refine .inr (.inr ⟨⟨hsuccess, fun hrefused => ?_⟩, (Option.some.inj hs).symm⟩)
    subst hrefused
    match hreply : answer.reply ((attempt false name config).effect s.paths) with
    | .success => exact absurd hreply hsuccess
    | .status => exact absurd hreply (hstatus rfl)
    | .error => rfl

theorem Apart.call (h : Apart s) {id : Nat} {answer : Answer} {task : Task} (htask : s.task? id = some task)
    (hgood : Harmless s (.calls id answer)) (hs : s.call id answer task = some s') : Apart s' := by
  have hgood := hgood task htask
  have hmem := mem_of_task? htask
  match task with
  | .view name config refused =>
    simp only [State.call] at hs
    split at hs
    · obtain rfl := Option.some.inj hs
      exact h.configure.put nofun trivial
    · obtain rfl := Option.some.inj hs
      exact h.configure.drop
  | .sync bundle ((name, config) :: todo) refused desired =>
    have hholds : ∀ n ∈ recordedNames bundle, n ∈ ((name, config) :: todo).map Prod.fst ∨ n ∈ desired ∨
        id ∈ s.faulty ∧ n ∉ s.active := h.holds _ hmem
    have hc : Apart (s.configure (attempt refused name config) name answer) := h.configure
    have hmem' : (id, .sync bundle ((name, config) :: todo) refused desired) ∈
        (s.configure (attempt refused name config) name answer).tasks := by simpa using hmem
    rcases call_sync hs with ⟨-, rfl⟩ | rfl | ⟨hgives, rfl⟩
    · refine hc.put (fun b hb => ⟨_, hmem', hb⟩) fun n hn => ?_
      rcases hholds n hn with htodo | hdesired | hgiven
      · rcases List.mem_cons.1 htodo with rfl | htodo
        · exact .inr (.inl List.mem_cons_self)
        · exact .inl htodo
      · exact .inr (.inl (List.mem_cons_of_mem _ hdesired))
      · exact .inr (.inr (by simpa using hgiven))
    · exact hc.put (fun b hb => ⟨_, hmem', hb⟩) fun n hn => by simpa using hholds n hn
    · obtain ⟨halone, hactive, -⟩ := hgood hgives
      have hgiven := hc.giveUp false hmem' (by simpa using halone) (by simpa using hactive)
      rwa [configure_faulty] at hgiven
  | .sync _ [] _ _ => cases hs
  | .delete bundle (name :: stale) desired =>
    obtain rfl := Option.some.inj hs
    have hmem' : (id, .delete bundle (name :: stale) desired) ∈ (s.delete name answer).tasks := by
      simpa using hmem
    exact h.delete.put (fun b hb => ⟨_, hmem', hb⟩) fun n hn => h.holds _ hmem n (List.mem_cons_of_mem _ hn)
  | .delete _ [] _ => cases hs

theorem Apart.proceed (h : Apart s) {id : Nat} {task : Task} (htask : s.task? id = some task)
    (hs : s.proceed id task = some s') : Apart s' := by
  have hmem := mem_of_task? htask
  match task with
  | .view .. => cases hs
  | .sync _ (_ :: _) _ _ => cases hs
  | .delete _ (_ :: _) _ => cases hs
  | .sync bundle [] refused desired =>
    simp only [State.proceed] at hs
    split at hs
    · cases hs
    · obtain rfl := Option.some.inj hs
      -- a tracked path that is not desired is none of the bundle's
      refine h.put (fun b hb => ⟨_, hmem, hb⟩) fun n hn hname => ?_
      obtain ⟨hactive, hdesired⟩ := List.mem_filter.1 hn
      rcases h.holds _ hmem n hname with htodo | hmem' | ⟨-, huntracked⟩
      · cases htodo
      · simp [hmem'] at hdesired
      · exact huntracked hactive
  | .delete bundle [] desired =>
    obtain rfl := Option.some.inj hs
    obtain ⟨-, htasks⟩ := h.agree _ hmem bundle rfl
    refine ⟨fun t ht b hb => ?_, h.drop.alone, fun t ht => ?_⟩
    · have ht' := List.mem_of_mem_filter ht
      refine ⟨fun c hc => ?_, (h.drop.agree t ht b hb).2⟩
      obtain rfl := Option.some.inj hc
      exact fun n => (htasks t ht' b hb n).symm
    · have ht' := List.mem_of_mem_filter ht
      have hne : t.1 ≠ id := by simpa using (List.mem_filter.1 ht).2
      have hholds := h.holds t ht'
      obtain ⟨n, task⟩ := t
      cases task with
      | view => trivial
      | sync b todo refused' desired' =>
        -- another sync that runs has given up nothing
        intro name hname
        refine (hholds name hname).imp_right fun hor => hor.imp_right fun hgiven => ?_
        exact absurd (h.alone _ ht' hgiven.1 rfl _ hmem rfl).symm hne
      | delete => exact hholds

/-- A sync begins among syncs of the same paths that have given up none. -/
theorem Apart.begin (h : Apart s) {id : Nat} {key : Option String} {bundle : KioskBundle} {seen : List String}
    (hgood : ∀ t ∈ s.tasks, ∀ running ∈ t.2.bundle?, t.1 ∉ s.faulty ∧ SamePaths running bundle)
    (hholds : ∀ name ∈ recordedNames bundle, name ∈ (recordings env key bundle).map Prod.fst ∨
      name ∈ ([] : List String)) :
    Apart ({ s with
      current := if s.current = some bundle then s.current else none
      seen
      faulty := s.faulty.filter (· ≠ id) }.put id (.sync bundle (recordings env key bundle) false [])) := by
  have hbundle : ∀ t ∈ (id, Task.sync bundle (recordings env key bundle) false []) ::
    s.tasks.filter (·.1 ≠ id), ∀ b ∈ t.2.bundle?, SamePaths b bundle := by
    intro t ht b hb
    rcases List.mem_cons.1 ht with rfl | ht
    · obtain rfl := Option.some.inj hb
      exact fun _ => Iff.rfl
    · exact (hgood t (List.mem_of_mem_filter ht) b hb).2
  refine ⟨fun t ht b hb => ⟨fun c hc => ?_, fun u hu c hc n => ?_⟩, fun t ht hfaulty hsync => ?_,
    fun t ht => ?_⟩
  · dsimp only [State.put] at hc
    split at hc
    · next hcurrent =>
      obtain rfl := Option.some.inj (hcurrent.symm.trans hc)
      exact hbundle t ht b hb
    · cases hc
  · exact (hbundle t ht b hb n).trans (hbundle u hu c hc n).symm
  · obtain ⟨hmem, hne⟩ := List.mem_filter.1 hfaulty
    rcases List.mem_cons.1 ht with rfl | ht
    · simp at hne
    · obtain ⟨b, hb⟩ := Option.isSome_iff_exists.1 hsync
      exact absurd hmem (hgood t (List.mem_of_mem_filter ht) b hb).1
  · rcases List.mem_cons.1 ht with rfl | ht
    · exact fun n hn => (hholds n hn).imp_right .inl
    · have hne : t.1 ≠ id := by simpa using (List.mem_filter.1 ht).2
      have hfaulty : (t.1 ∈ s.faulty.filter (· ≠ id)) = (t.1 ∈ s.faulty) := by simp [hne]
      show t.2.Holds (t.1 ∈ s.faulty.filter (· ≠ id)) s.active
      rw [hfaulty]
      exact h.holds t (List.mem_of_mem_filter ht)

theorem Apart.step (h : Apart s) {label : Label} (hgood : Harmless s label)
    (hs : step env s label = some s') : Apart s' := by
  cases label with
  | syncs id key bundle =>
    simp only [Recording.step] at hs
    split at hs
    · cases hs
    · obtain rfl := Option.some.inj hs
      exact h.begin hgood.2 fun name hname => .inl (map_recordings key bundle ▸ hname)
  | views id key bundle camera_id stream =>
    simp only [Recording.step] at hs
    have hseen : Apart { s with seen := ids bundle ++ s.seen } := ⟨h.agree, h.alone, h.holds⟩
    split at hs
    · cases hs
    · split at hs
      · obtain rfl := Option.some.inj hs
        exact hseen.put nofun trivial
      · obtain rfl := Option.some.inj hs
        exact hseen
  | calls id answer =>
    obtain ⟨task, htask, hs⟩ := Option.bind_eq_some_iff.1 hs
    exact h.call htask hgood hs
  | proceeds id =>
    obtain ⟨task, htask, hs⟩ := Option.bind_eq_some_iff.1 hs
    exact h.proceed htask hs

/-- Recordings after a call for the path `name`, when the other paths that are due were due before. -/
theorem Inv.attempted (h : Inv s) {refused : Bool} {name : String} {config : Config} {answer : Answer}
    (hpaths : s'.paths = (s.configure (attempt refused name config) name answer).paths)
    (hconfigured : s'.configured = (s.configure (attempt refused name config) name answer).configured)
    (hdue : ∀ n, n ≠ name → s'.Due n → s.Due n)
    (hname : s'.Due name → name ∈ s'.configured → s'.IsRecording name)
    (n : String) (hn : s'.Due n) (hmem : n ∈ s'.configured) : s'.IsRecording n := by
  by_cases heq : n = name
  · subst heq
    exact hname hn hmem
  · obtain ⟨hpath, hback⟩ := configure_frame (s := s) heq
    have hold := h.due n (hdue n heq hn) (hback (hconfigured ▸ hmem))
    unfold State.IsRecording
    rw [hpaths, hpath]
    exact hold

/-- The path is left alone unless a call for it takes effect. -/
theorem Inv.untouched (h : Inv s) {call : Call} {name : String} {answer : Answer}
    (hpaths : s'.paths = (s.configure call name answer).paths)
    (hconfigured : s'.configured = (s.configure call name answer).configured)
    (hnone : answer.taken (call.effect s.paths) = none) (hdue : s.Due name) (hmem : name ∈ s'.configured) :
    s'.IsRecording name := by
  rw [configure_of_none hnone] at hpaths hconfigured
  unfold State.IsRecording
  rw [hpaths]
  exact h.due name hdue (hconfigured ▸ hmem)

theorem Inv.todo_put (h : Inv s) {id : Nat} {task : Task} (htodo : ∀ e ∈ task.todo, Records e.2) :
    ∀ t ∈ (s.put id task).tasks, ∀ e ∈ t.2.todo, Records e.2 := by
  intro t ht
  rcases List.mem_cons.1 ht with rfl | ht
  · exact htodo
  · exact h.todo t (List.mem_of_mem_filter ht)

theorem Inv.todo_drop (h : Inv s) {id : Nat} : ∀ t ∈ (s.drop id).tasks, ∀ e ∈ t.2.todo, Records e.2 :=
  fun t ht => h.todo t (List.mem_of_mem_filter ht)

theorem Inv.callView (h : Inv s) {id : Nat} {name : String} {config : Config} {refused : Bool}
    {answer : Answer}
    (hgood : s.Due name → answer.taken ((attempt refused name config).effect s.paths) = none)
    (hs : s.call id answer (.view name config refused) = some s') : Inv s' := by
  have hfinish : ∀ t : State, (t = (s.configure (attempt refused name config) name answer).drop id ∨
      t = (s.configure (attempt refused name config) name answer).put id (.view name config true)) →
          Inv t := by
    intro t ht
    have hdue : ∀ n, t.Due n → s.Due n := by
      intro n hn
      rcases ht with rfl | rfl
      · exact due_configure.1 (due_drop hn)
      · exact due_configure.1 ((due_put hn).resolve_right fun hdone => hdone)
    have hpaths : t.paths = (s.configure (attempt refused name config) name answer).paths := by
      rcases ht with rfl | rfl <;> rfl
    have hconfigured : t.configured = (s.configure (attempt refused name config) name answer).configured := by
      rcases ht with rfl | rfl <;> rfl
    refine ⟨h.attempted hpaths hconfigured (fun n _ => hdue n) fun hn => ?_, ?_, ?_⟩
    · exact h.untouched hpaths hconfigured (hgood (hdue name hn)) (hdue name hn)
    · intro u hu
      have hmem : u ∈ s.tasks ∨ u.2.todo = [] := by
        rcases ht with rfl | rfl
        · exact .inl (by simpa using List.mem_of_mem_filter hu)
        · rcases List.mem_cons.1 hu with rfl | hu
          · exact .inr rfl
          · exact .inl (by simpa using List.mem_of_mem_filter hu)
      rcases hmem with hmem | hnil
      · exact h.todo u hmem
      · simp [hnil]
    · have hseen : t.seen = s.seen := by rcases ht with rfl | rfl <;> exact configure_seen
      rw [hseen]
      exact h.distinct
  simp only [State.call] at hs
  split at hs
  · exact hfinish _ (.inr (Option.some.inj hs).symm)
  · exact hfinish _ (.inl (Option.some.inj hs).symm)

/-- A sync's call, after which `todo'` is left to be done. -/
theorem Inv.callSync (h : Inv s) {id : Nat} {bundle : KioskBundle} {name : String} {config : Config}
    {todo todo' : List (String × Config)} {refused refused' : Bool} {desired desired' : List String}
    {answer : Answer}
    (htask : (id, .sync bundle ((name, config) :: todo) refused desired) ∈ s.tasks)
    (htodo : todo' = todo ∨ todo' = (name, config) :: todo)
    (hgives : todo' = todo → answer.taken ((attempt refused name config).effect s.paths) = none →
      name ∈ s.configured → s.IsRecording name) :
    Inv ((s.configure (attempt refused name config) name answer).put id
      (.sync bundle todo' refused' desired')) := by
  have hrecords := h.todo _ htask
  have hold : ∀ n, n ∈ recordedNames bundle → n ∉ ((name, config) :: todo).map Prod.fst →
      s.Due n := fun n hn hmem =>
    .inr ⟨_, htask, hn, hmem⟩
  have hdue : ∀ n, (n ≠ name ∨ todo' = (name, config) :: todo) →
      ((s.configure (attempt refused name config) name answer).put id
            (.sync bundle todo' refused' desired')).Due n → s.Due n := by
    intro n hn hdue
    rcases due_put hdue with hdue | ⟨hname, hmem⟩
    · exact due_configure.1 hdue
    · refine hold n hname fun hin => hmem ?_
      rcases htodo with rfl | rfl
      · have hne : n ≠ name := hn.resolve_right fun heq => by simpa using congrArg List.length heq
        exact (List.mem_cons.1 hin).resolve_left hne
      · exact hin
  refine ⟨h.attempted rfl rfl (fun n hn => hdue n (.inl hn)) fun hname hmem => ?_, ?_, ?_⟩
  · by_cases hnone : answer.taken ((attempt refused name config).effect s.paths) = none
    · rcases htodo with htodo | htodo
      · have hsame : s.configure (attempt refused name config) name answer = s := configure_of_none hnone
        have hmem' : name ∈ s.configured := by
          have : name ∈ (s.configure (attempt refused name config) name answer).configured := hmem
          rwa [hsame] at this
        have hrecording := hgives htodo hnone hmem'
        show (s.configure (attempt refused name config) name answer).IsRecording name
        rwa [hsame]
      · exact h.untouched rfl rfl hnone (hdue name (.inr htodo) hname) hmem
    · exact configure_records (hrecords _ (List.mem_cons_self ..)) hnone
  · intro t ht
    rcases List.mem_cons.1 ht with rfl | ht
    · rcases htodo with rfl | rfl
      · exact fun e he => hrecords e (List.mem_cons_of_mem _ he)
      · exact hrecords
    · exact h.todo t (by simpa using List.mem_of_mem_filter ht)
  · show ∀ id ∈ (s.configure (attempt refused name config) name answer).seen, _
    rw [show ((s.configure (attempt refused name config) name answer).put id _).seen =
      s.seen from configure_seen, configure_seen]
    exact h.distinct

theorem Inv.callDelete (h : Inv s) {id : Nat} {bundle : KioskBundle} {name : String}
    {stale desired : List String}
    {answer : Answer} (htask : (id, .delete bundle (name :: stale) desired) ∈ s.tasks)
    (hdue : ¬ s.Due name) : Inv ((s.delete name answer).put id (.delete bundle stale desired)) := by
  have hput : Inv (s.put id (.delete bundle stale desired)) := by
    refine ⟨fun n hn => h.due n ?_, h.todo_put nofun, h.distinct⟩
    exact (due_put hn).elim (fun hn => hn) fun hn => .inr ⟨_, htask, hn⟩
  unfold State.delete
  split
  · next paths heffect =>
    refine ⟨fun n hn hmem => ?_, hput.todo, hput.distinct⟩
    have hne : n ≠ name := by
      rintro rfl
      exact hdue ((due_put hn).elim (fun hn => hn) fun hn => .inr ⟨_, htask, hn⟩)
    obtain ⟨config, hconfig, hrecords⟩ := hput.due n hn hmem
    exact ⟨config, (delete_effect (Answer.taken_some heffect) n hne).trans hconfig, hrecords⟩
  · exact hput

theorem Inv.call (h : Inv s) (hapart : Apart s) {id : Nat} {answer : Answer} {task : Task}
    (htask : s.task? id = some task)
    (hgood : Harmless s (.calls id answer)) (hs : s.call id answer task = some s') : Inv s' := by
  have hgood := hgood task htask
  have hmem := mem_of_task? htask
  match task with
  | .view name config refused => exact h.callView hgood hs
  | .sync bundle ((name, config) :: todo) refused desired =>
    rcases call_sync hs with ⟨hreply, rfl⟩ | rfl | ⟨hgives, rfl⟩
    · exact h.callSync hmem (.inl rfl) fun _ hnone => absurd hnone (taken_of_success hreply)
    · exact h.callSync hmem (.inr rfl) fun heq => absurd (congrArg List.length heq) (by simp)
    · have hinv : Inv ((s.configure (attempt refused name config) name answer).put id
          (.sync bundle todo false desired)) := h.callSync hmem (.inl rfl) fun _ => (hgood hgives).2.2
      exact ⟨hinv.due, hinv.todo, hinv.distinct⟩
  | .sync _ [] _ _ => cases hs
  | .delete bundle (name :: stale) desired =>
    obtain rfl := Option.some.inj hs
    exact h.callDelete hmem (hapart.not_due hmem List.mem_cons_self)
  | .delete _ [] _ => cases hs

theorem Inv.proceed (h : Inv s) {id : Nat} {task : Task} (htask : s.task? id = some task)
    (hs : s.proceed id task = some s') : Inv s' := by
  have hmem := mem_of_task? htask
  match task with
  | .view .. => cases hs
  | .sync _ (_ :: _) _ _ => cases hs
  | .delete _ (_ :: _) _ => cases hs
  | .sync bundle [] refused desired =>
    simp only [State.proceed] at hs
    split at hs
    · cases hs
    · obtain rfl := Option.some.inj hs
      refine ⟨fun n hn => h.due n ?_, h.todo_put nofun, h.distinct⟩
      exact (due_put hn).elim (fun hn => hn) fun hn => .inr ⟨_, hmem, hn, List.not_mem_nil⟩
  | .delete bundle [] desired =>
    obtain rfl := Option.some.inj hs
    refine ⟨fun n hn => h.due n ?_, h.todo_drop, h.distinct⟩
    rcases due_drop hn with ⟨current, hcurrent, hname⟩ | hn
    · obtain rfl := Option.some.inj hcurrent
      exact .inr ⟨_, hmem, hname⟩
    · exact .inr hn

theorem Inv.seen (h : Inv s) {bundle : KioskBundle} (hgood : Legible s bundle) :
    ∀ id ∈ ids bundle ++ s.seen, ∀ id' ∈ ids bundle ++ s.seen, safeId id = safeId id' → id = id' := by
  intro id hid id' hid' heq
  rcases List.mem_append.1 hid with hnew | hold
  · exact hgood id hnew id' hid' heq
  · rcases List.mem_append.1 hid' with hnew' | hold'
    · exact (hgood id' hnew' id hid heq.symm).symm
    · exact h.distinct id hold id' hold' heq

theorem Inv.step (h : Inv s) (hapart : Apart s) {label : Label} (hgood : Harmless s label)
    (hs : step env s label = some s') : Inv s' := by
  cases label with
  | syncs id key bundle =>
    simp only [Recording.step] at hs
    split at hs
    · cases hs
    · obtain rfl := Option.some.inj hs
      refine ⟨fun n hn => h.due n ?_, h.todo_put fun e he => ?_, h.seen hgood.1⟩
      · rcases due_put hn with (⟨current, hcurrent, hname⟩ | hn) | ⟨hname, htodo⟩
        · dsimp only at hcurrent
          split at hcurrent
          · exact .inl ⟨current, hcurrent, hname⟩
          · cases hcurrent
        · exact .inr hn
        · exact absurd (map_recordings key bundle ▸ hname) htodo
      · obtain ⟨c, -, rfl⟩ := List.mem_map.1 he
        exact records_recordConfig ..
  | views id key bundle camera_id stream =>
    simp only [Recording.step] at hs
    have hseen : Inv { s with seen := ids bundle ++ s.seen } := ⟨h.due, h.todo, h.seen hgood⟩
    split at hs
    · cases hs
    · split at hs
      · obtain rfl := Option.some.inj hs
        refine ⟨fun n hn => hseen.due n ?_, hseen.todo_put nofun, hseen.distinct⟩
        exact (due_put hn).resolve_right fun hdone => hdone
      · obtain rfl := Option.some.inj hs
        exact hseen
  | calls id answer =>
    obtain ⟨task, htask, hs⟩ := Option.bind_eq_some_iff.1 hs
    exact h.call hapart htask hgood hs
  | proceeds id =>
    obtain ⟨task, htask, hs⟩ := Option.bind_eq_some_iff.1 hs
    exact h.proceed htask hs

/-- A path's name tells the letters and digits of the id. -/
theorem safeId_of_media_path_name {id id' stream stream' : String}
    (h : media_path_name id stream = media_path_name id' stream') :
    safeId id = safeId id' := by
  have hchars := congrArg String.toList h
  simp only [media_path_name, String.toList_ofList, List.cons.injEq, true_and] at hchars
  have hsafe : ∀ id : String, ∀ c ∈ safeId id, c ≠ '_' := by
    rintro id c hc rfl
    exact absurd (List.mem_filter.1 hc).2 (by decide)
  have htake : ∀ id stream : String, (safeId id ++ '_' :: stream.toList).takeWhile (· ≠ '_') = safeId id := by
    intro id stream
    rw [List.takeWhile_append_of_pos fun c hc => by simpa using hsafe id c hc]
    simp
  rw [← htake id stream, hchars, htake]

theorem Inv.kept (h : Inv s) : Kept s where
  recording bundle hbundle name hname := h.due name (.inl ⟨bundle, hbundle, hname⟩)
  distinct id hid id' hid' hne _ _ _ _ heq := hne (h.distinct id hid id' hid' (safeId_of_media_path_name heq))

theorem Inv.init (paths : Paths) : Inv (.init paths) ∧ Apart (.init paths) := by
  have hnone : ∀ t, t ∉ (State.init paths).tasks := fun _ => List.not_mem_nil
  refine ⟨⟨?_, ?_, ?_⟩, ?_, ?_, ?_⟩
  · exact fun _ _ hname => absurd hname List.not_mem_nil
  · exact fun t ht => absurd ht (hnone t)
  · exact fun _ hid => absurd hid List.not_mem_nil
  all_goals exact fun t ht => absurd ht (hnone t)

/-- In a run whose steps are all harmless, what is to be recorded is, and paths belong to one camera. -/
theorem recording_kept {paths : Paths} {labels : List Label}
    (hrun : Machine.run (step env) (.init paths) labels = some s)
    (hgood : Machine.Along (step env) Harmless (.init paths) labels) : Kept s :=
  (hgood.inv (I := fun s => Inv s ∧ Apart s) (fun _ _ _ hlabel hs hi =>
    ⟨hi.1.step hi.2 hlabel hs, hi.2.step hlabel hs⟩) hrun
    (Inv.init paths)).1.kept

/-! ### A camera that is viewed while it is recorded -/

def camera : BundleCamera where
  id := "c1"
  name := "Gate"
  enabled := true
  simple_vms_managed := true
  recording_config := .null
  rtsp_url := none
  streams := [⟨"main", "rtsp://gate/main"⟩, ⟨"sub", "rtsp://gate/sub"⟩]
  playback_username := none
  playback_password_encrypted := none
  onvif_password_encrypted := none

def site : KioskBundle where
  tenant_slug := "default"
  display := none
  layouts := []
  displays := []
  cameras := [camera]
  operator_console := ⟨true, none, 18443, [], ⟨true, none, .null⟩⟩

def plain : Env := ⟨fun uri _ _ => uri, fun _ _ => none⟩

def synced : List Label := [.syncs 0 none site, .calls 0 .served, .proceeds 0, .proceeds 0]

/-- A sync, an operator who views the other stream of the camera, and another sync, whose `add` is refused. -/
def viewedSub : List Label :=
  synced ++ [.views 1 none site "c1" "sub", .calls 1 .served, .syncs 0 none site, .calls 0 .served,
    .calls 0 .served, .proceeds 0, .proceeds 0]

theorem recording_kept_viewed : ∃ s, Machine.run (step plain) (.init fun _ => none) viewedSub = some s ∧
    Kept s := by
  have hlegible : ∀ s : State, (∀ id ∈ s.seen, id = "c1") → Legible s site := by
    intro s hseen id hid id' hid' _
    obtain rfl : id = "c1" := by simpa [ids, site, camera] using hid
    rcases List.mem_append.1 hid' with hid' | hid'
    · simpa [ids, site, camera, eq_comm] using hid'
    · exact (hseen id' hid').symm
  refine ⟨_, rfl, @recording_kept plain _ (fun _ => none) viewedSub rfl
    ⟨⟨hlegible _ nofun, nofun⟩, ?_, trivial, trivial, hlegible _ ?_, ?_, ⟨hlegible _ ?_, nofun⟩, ?_,
      ?_, trivial, trivial, trivial⟩⟩
  · rintro _ ⟨⟩ hgives
    exact absurd rfl hgives.1
  · exact fun id hid => List.mem_singleton.1 (show id ∈ ["c1"] from hid)
  · rintro _ ⟨⟩ (⟨bundle, hbundle, hname⟩ | ⟨t, ht, hdone⟩)
    · obtain rfl := Option.some.inj hbundle
      exact absurd hname (by decide)
    · rcases List.mem_cons.1 ht with rfl | ht
      · exact hdone.elim
      · cases ht
  · intro id hid
    have hid : id ∈ ["c1", "c1"] := hid
    simpa using hid
  · rintro _ ⟨⟩ hgives
    exact absurd (hgives.2 rfl) (by decide)
  · rintro _ ⟨⟩ hgives
    exact absurd rfl hgives.1

/-- An operator's view of the recorded stream makes the path one that is read on demand only. -/
theorem recording_disturbed : ¬ ∀ (env : Env) (paths : Paths) (labels : List Label) (s : State),
    Machine.run (step env) (.init paths) labels = some s → Kept s := by
  intro h
  have hkept := h plain (fun _ => none)
    (synced ++ [.views 1 none site "c1" "main", .calls 1 .served, .calls 1 .served]) _ rfl
  obtain ⟨config, hconfig, -, hdemand⟩ :=
    hkept.recording site rfl "bf_c1_main" (by decide +kernel) (by decide +kernel)
  obtain rfl := Option.some.inj hconfig
  exact absurd hdemand (by decide +kernel)

end Recording
