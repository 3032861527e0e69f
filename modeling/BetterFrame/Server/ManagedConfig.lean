import BetterFrame.Lib.Json
import BetterFrame.Lib.Run

/-!
# Versions of the managed configuration

The handlers of `routes-admin.ts` that store a kiosk's `managed_config_json`: `POST
/admin/kiosks/:id`, `/managed-config` and `/windows-policy`, at each read and write of the kiosk's
row. `versions_hold` says when every configuration gets a version of its own.
-/

namespace ManagedConfig

open Text

abbrev Config := List (String × Json)

abbrev Body := String → Option String

/-- A row of `kiosks`, with the columns that the managed configuration depends on. -/
structure Row where
  name : String
  enabled : Bool
  managed_image : Bool
  capabilities : List String
  managed_config_json : Option Config
  managed_config_version : Nat
  managed_config_applied_version : Nat
  managed_config_error : Option String

/-- The requests that store a configuration. -/
inductive Request where
  | rename (body : Body)
  /-- `ciphertext` is what `encryptString` gives for the password. -/
  | managedConfig (body : Body) (ciphertext : String)
  | windowsPolicy (body : Body)

/-! ### Forms -/

def isHostChar (c : Char) : Bool := ('a' ≤ c && c ≤ 'z') || isDigit c || c = '-'

/-- One dash for each run of characters of a kind. -/
def dashes (p : Char → Bool) (inside : Bool) : List Char → List Char
  | [] => []
  | c :: cs =>
    if !p c then c :: dashes p false cs else if inside then dashes p true cs else '-' :: dashes p true cs

/-- No dashes at the ends. -/
def trimDashes (cs : List Char) : List Char := ((cs.dropWhile (· = '-')).reverse.dropWhile (· = '-')).reverse

/-- `toLowerCase`, up to characters that are no host characters before and after it. Outside ASCII
only the Kelvin sign and the dotted capital I have a host character in lower case. -/
def lowerCase (c : Char) : List Char :=
  if c.toNat = 0x212a then ['k'] else if c.toNat = 0x130 then ['i', Char.ofNat 0x307] else [c.toLower]

/-- A host name of letters, digits and single dashes. -/
def hostnameFromName (name : String) : String :=
  let hostChars := trimDashes (dashes (!isHostChar ·) false (name.toList.flatMap lowerCase))
  let slug := trimDashes ((dashes (· = '-') false hostChars).take 63)
  if slug = [] then "betterframe-kiosk" else String.ofList slug

example : hostnameFromName "Küche, 2. OG" = "k-che-2-og" := by decide +kernel

def field (body : Body) (key : String) : String := trim ((body key).getD "")

/-- The entries of a text that commas or line ends separate. -/
def list (raw : String) : List String :=
  ((splitOn ',' (raw.toList.map fun c => if c = '\n' then ',' else c)).map fun part =>
    trim (String.ofList part)).filter (· ≠ "")

/-- A member for each text that is not empty. -/
def texts (ms : List (String × String)) : Config := (ms.filter (·.2 ≠ "")).map fun m => (m.1, .str m.2)

/-- `number` gives the integer that `Number(s)` is. -/
def networkOf (number : String → Option Int) (body : Body) : Option Json :=
  let mode := field body "network_mode"
  if mode = "dhcp" ∨ mode = "static" then
    let dns := field body "network_dns"
    let addresses := if mode = "static" then
        texts [("ip_cidr", field body "network_ip_cidr"), ("gateway", field body "network_gateway")] ++
          (if dns = "" then [] else
            [("dns", .arr (((splitOn ',' dns.toList).map fun part =>
              Json.str (trim (String.ofList part))).filter fun
              | .str s => s ≠ ""
              | _ => true))])
      else []
    let vlan := match number (field body "network_vlan_id") with
      | some vlan =>
        if field body "network_vlan_id" ≠ "" ∧ 1 ≤ vlan ∧ vlan ≤ 4094 then [("vlan_id", Json.ofInt vlan)]
        else []
      | none => []
    some (.obj (texts [("mode", mode), ("interface", field body "network_interface")] ++ addresses ++ vlan))
  else none

/-- `prev?.wifi?.psk_ciphertext ?? null` -/
def previousCiphertext (kiosk : Row) : Json :=
  (((kiosk.managed_config_json.bind fun cfg => Json.get? "wifi" (.obj cfg)).bind
    (Json.get? "psk_ciphertext"))).getD .null

/-- The wireless network of the form, with the stored passphrase when none is given. -/
def wifiOf (body : Body) (ciphertext : String) (kiosk : Row) : Option Json :=
  let ssid := field body "wifi_ssid"
  if ssid = "" then none
  else
    let psk := if (body "wifi_psk").getD "" ≠ "" then .str ciphertext else previousCiphertext kiosk
    match psk with
    | .null | .str "" | .bool false => none
    | psk => some (.obj [("ssid", .str ssid), ("psk_ciphertext", psk)])

/-- The configuration that the form stands for. -/
def managedConfig (number : String → Option Int) (body : Body) (ciphertext : String) (kiosk : Row) : Config :=
  let hostname := field body "hostname"
  texts [("hostname", if hostname = "" then hostnameFromName kiosk.name else hostname),
    ("timezone", field body "timezone")] ++
    ((networkOf number body).map fun network => ("network", network)).toList ++
    ((wifiOf body ciphertext kiosk).map fun wifi => ("wifi", wifi)).toList

def checked (body : Body) (key : String) : Json := .bool (body key = some "1")

/-- The policy of a Windows kiosk, from the form's check boxes. -/
def windowsPolicy (body : Body) : Json :=
  .obj [
    ("controls", .obj (["display_power", "host_sleep_wake", "volume", "host_reboot",
          "app_restart"].map fun key =>
      (key, checked body key))),
    ("displays", .obj [
      ("mode", .str (if body "display_mode" = some "selected" then "selected" else "all")),
      ("selected_display_names", .arr ((list ((body "selected_display_names").getD "")).map .str))])]

/-! ### Handlers -/

/-- `cfg?.hostname === hostname` -/
def sameHostname (cfg : Config) (hostname : String) : Bool :=
  match Json.get? "hostname" (.obj cfg) with
  | some (.str old) => old = hostname
  | _ => false

/-- What a handler that read `kiosk` stores, if anything. -/
def stores (number : String → Option Int) (kiosk : Row) : Request → Option Config
  | .rename body =>
    let name := (body "name").getD ""
    let cfg := kiosk.managed_config_json.getD []
    let hostname := hostnameFromName name
    if kiosk.managed_image ∧ name ≠ "" ∧ sameHostname cfg hostname = false then
      some (Json.assign cfg "hostname" (.str hostname)) else none
  | .managedConfig body ciphertext =>
    if kiosk.managed_image then some (managedConfig number body ciphertext kiosk) else none
  | .windowsPolicy body =>
    if "windows" ∈ kiosk.capabilities then
      some (Json.assign (kiosk.managed_config_json.getD []) "windows_policy" (windowsPolicy body))
    else none

/-- The member that a request sets and leaves the others of; the form for the whole configuration
sets them all. -/
def own : Request → Option String
  | .rename _ => some "hostname"
  | .managedConfig .. => none
  | .windowsPolicy _ => some "windows_policy"

/-- What a request has read. -/
inductive Stage where
  | reads
  | names (kiosk : Row)
  | stores (kiosk : Row) (cfg : Config)

/-- A request under way. -/
structure Task where
  id : Nat
  request : Request
  stage : Stage

/-- A configuration that was stored, and the one that it replaced. -/
structure Write where
  request : Request
  before : Option Config
  cfg : Config

/-- `history` are the configurations that the row has held, with their versions, the latest first. -/
structure State where
  row : Row
  tasks : List Task
  history : List (Option Config × Nat)
  writes : List Write

/-- A request begins or goes on, or the kiosk reports. -/
inductive Label where
  | begins (id : Nat) (request : Request)
  | steps (id : Nat)
  | reports (managed_image : Bool) (capabilities : List String) (applied : Nat) (error : Option String)

namespace State

variable (s : State)

def init (row : Row) : State := ⟨row, [], [(row.managed_config_json, row.managed_config_version)], []⟩

def without (id : Nat) : List Task := s.tasks.filter (·.id ≠ id)

/-- What follows the last read or write before the configuration is stored. -/
def proceed (number : String → Option Int) (task : Task) (kiosk : Row) : State :=
  match ManagedConfig.stores number kiosk task.request with
  | some cfg => { s with tasks := { task with stage := .stores kiosk cfg } :: s.without task.id }
  | none => { s with tasks := s.without task.id }

/-- The repository's `UPDATE`: the version is computed from the row the request read. -/
def update (task : Task) (kiosk : Row) (cfg : Config) : State :=
  { row := { s.row with
      managed_config_json := some cfg
      managed_config_version := kiosk.managed_config_version + 1
      managed_config_error := none }
    tasks := s.without task.id
    history := (some cfg, kiosk.managed_config_version + 1) :: s.history
    writes := ⟨task.request, s.row.managed_config_json, cfg⟩ :: s.writes }

/-- The next read or write of a handler. A name that is missing is null, which the column does not take. -/
def advance (number : String → Option Int) (task : Task) : State :=
  match task.stage, task.request with
  | .reads, .rename _ => { s with tasks := { task with stage := .names s.row } :: s.without task.id }
  | .reads, _ => s.proceed number task s.row
  | .names kiosk, .rename body =>
    match body "name" with
    | none => { s with tasks := s.without task.id }
    | some name =>
      { s with row := { s.row with name, enabled := body "enabled" = some "1" } }.proceed number
        task kiosk
  | .names _, _ => s
  | .stores kiosk cfg, _ => s.update task kiosk cfg

end State

def step (number : String → Option Int) (s : State) : Label → Option State
  | .begins id request =>
    if s.tasks.any (·.id = id) then none else some { s with tasks := ⟨id, request, .reads⟩ :: s.tasks }
  | .steps id => (s.tasks.find? (·.id = id)).map (s.advance number)
  | .reports managed_image capabilities applied error => some { s with row := { s.row with
      managed_image
      capabilities
      managed_config_applied_version := applied
      managed_config_error := error } }

/-- Versions never decrease, and configurations that differ have versions that differ. A request
that sets one member leaves the others as they were when it stored them. -/
structure Versioned (s : State) : Prop where
  current : s.history.head? = some (s.row.managed_config_json, s.row.managed_config_version)
  ordered : s.history.Pairwise fun later earlier => earlier.2 ≤ later.2 ∧
    (later.1 ≠ earlier.1 → earlier.2 < later.2)
  kept : ∀ write ∈ s.writes, ∀ key ∈ own write.request, ∀ k, k ≠ key →
    Json.get? k (.obj write.cfg) = write.before.bind fun cfg => Json.get? k (.obj cfg)

/-- A configuration is stored while the row has the version that the handler read. -/
def Harmless (s : State) : Label → Prop
  | .steps id => ∀ task ∈ s.tasks.find? (·.id = id), ∀ kiosk cfg, task.stage = .stores kiosk cfg →
    s.row.managed_config_version = kiosk.managed_config_version
  | _ => True

/-! ### Runs -/

variable {number : String → Option Int} {s s' : State}

/-- A handler that sets one member of the configuration leaves the others of the one it read. -/
theorem get?_stores {kiosk : Row} {request : Request} {cfg : Config}
    (h : stores number kiosk request = some cfg)
    {key k : String} (hown : own request = some key) (hk : k ≠ key) :
    Json.get? k (.obj cfg) = kiosk.managed_config_json.bind fun cfg => Json.get? k (.obj cfg) := by
  have hnone : Json.get? k (.obj (kiosk.managed_config_json.getD [])) =
      kiosk.managed_config_json.bind fun cfg => Json.get? k (.obj cfg) := by
    cases kiosk.managed_config_json with
    | none => rfl
    | some cfg => rfl
  cases request with
  | rename body =>
    obtain rfl := Option.some.inj hown
    simp only [stores] at h
    split at h
    · obtain rfl := Option.some.inj h
      rw [Json.get?_assign_of_ne hk, hnone]
    · cases h
  | managedConfig => cases hown
  | windowsPolicy body =>
    obtain rfl := Option.some.inj hown
    simp only [stores] at h
    split at h
    · obtain rfl := Option.some.inj h
      rw [Json.get?_assign_of_ne hk, hnone]
    · cases h

/-- The versions are strictly ordered, and handlers that are to store something have read a
configuration of the history and stand by what they make of it. -/
structure Inv (number : String → Option Int) (s : State) : Prop where
  current : s.history.head? = some (s.row.managed_config_json, s.row.managed_config_version)
  ordered : s.history.Pairwise fun later earlier => earlier.2 < later.2
  read : ∀ task ∈ s.tasks, match task.stage with
    | .reads => True
    | .names kiosk => (kiosk.managed_config_json, kiosk.managed_config_version) ∈ s.history
    | .stores kiosk cfg => (kiosk.managed_config_json, kiosk.managed_config_version) ∈ s.history ∧
      stores number kiosk task.request = some cfg
  kept : ∀ write ∈ s.writes, ∀ key ∈ own write.request, ∀ k, k ≠ key →
    Json.get? k (.obj write.cfg) = write.before.bind fun cfg => Json.get? k (.obj cfg)

theorem Inv.versioned (h : Inv number s) : Versioned s where
  current := h.current
  ordered := h.ordered.imp fun hlt => ⟨Nat.le_of_lt hlt, fun _ => hlt⟩
  kept := h.kept

theorem Inv.init (row : Row) : Inv number (.init row) where
  current := rfl
  ordered := List.pairwise_singleton ..
  read := by simp [State.init]
  kept := by simp [State.init]

theorem Inv.current_mem (h : Inv number s) :
    (s.row.managed_config_json, s.row.managed_config_version) ∈ s.history :=
  List.mem_of_mem_head? (by rw [h.current]; rfl)

/-- A configuration of the history with the row's version is the row's. -/
theorem Inv.eq_current (h : Inv number s) {entry : Option Config × Nat} (hmem : entry ∈ s.history)
    (hversion : entry.2 = s.row.managed_config_version) : entry.1 = s.row.managed_config_json := by
  have hcurrent := h.current
  have hordered := h.ordered
  cases hhistory : s.history with
  | nil => simp [hhistory] at hmem
  | cons first rest =>
    rw [hhistory] at hcurrent hordered hmem
    obtain rfl := Option.some.inj hcurrent
    rcases List.mem_cons.1 hmem with rfl | hrest
    · rfl
    · exact absurd hversion (Nat.ne_of_lt ((List.pairwise_cons.1 hordered).1 entry hrest))

theorem Inv.lt_of_mem (h : Inv number s) {entry : Option Config × Nat} (hmem : entry ∈ s.history) :
    entry.2 ≤ s.row.managed_config_version := by
  have hcurrent := h.current
  have hordered := h.ordered
  cases hhistory : s.history with
  | nil => simp [hhistory] at hmem
  | cons first rest =>
    rw [hhistory] at hcurrent hordered hmem
    obtain rfl := Option.some.inj hcurrent
    rcases List.mem_cons.1 hmem with rfl | hrest
    · exact Nat.le_refl _
    · exact Nat.le_of_lt ((List.pairwise_cons.1 hordered).1 entry hrest)

/-- Tasks end, and the row changes but for its configuration. -/
theorem Inv.frame (h : Inv number s) {row : Row} {tasks : List Task}
    (hcfg : row.managed_config_json = s.row.managed_config_json)
    (hversion : row.managed_config_version = s.row.managed_config_version)
    (htasks : ∀ task ∈ tasks, task ∈ s.tasks) :
    Inv number { s with row, tasks } where
  current := by
    show s.history.head? = some (row.managed_config_json, row.managed_config_version)
    rw [hcfg, hversion]
    exact h.current
  ordered := h.ordered
  read task htask := h.read task (htasks task htask)
  kept := h.kept

theorem Inv.proceed (h : Inv number s) (task : Task) {kiosk : Row}
    (hread : (kiosk.managed_config_json, kiosk.managed_config_version) ∈ s.history) :
    Inv number (s.proceed number task kiosk) := by
  unfold State.proceed
  have hwithout : ∀ other ∈ s.without task.id, other ∈ s.tasks := fun _ => List.mem_of_mem_filter
  split
  · next cfg hcfg =>
    refine ⟨h.current, h.ordered, fun other hother => ?_, h.kept⟩
    rcases List.mem_cons.1 hother with rfl | hother
    · exact ⟨hread, hcfg⟩
    · exact h.read other (hwithout other hother)
  · exact h.frame rfl rfl hwithout

theorem Inv.update (h : Inv number s) {task : Task} (htask : task ∈ s.tasks) {kiosk : Row} {cfg : Config}
    (hstage : task.stage = .stores kiosk cfg)
    (hfresh : s.row.managed_config_version = kiosk.managed_config_version) :
    Inv number (s.update task kiosk cfg) := by
  have hread := h.read task htask
  rw [hstage] at hread
  obtain ⟨hmem, hstores⟩ := hread
  have hsame : kiosk.managed_config_json = s.row.managed_config_json := h.eq_current hmem hfresh.symm
  refine ⟨rfl, List.pairwise_cons.2 ⟨fun entry hentry => ?_, h.ordered⟩, fun other hother => ?_,
    fun write hwrite key hkey k hk => ?_⟩
  · rw [← hfresh]
    exact Nat.lt_succ_of_le (h.lt_of_mem hentry)
  · have hold := h.read other (List.mem_of_mem_filter hother)
    split
    · trivial
    · next hother' =>
      rw [hother'] at hold
      exact List.mem_cons_of_mem _ hold
    · next hother' =>
      rw [hother'] at hold
      exact ⟨List.mem_cons_of_mem _ hold.1, hold.2⟩
  · rcases List.mem_cons.1 hwrite with rfl | hwrite
    · rw [get?_stores hstores hkey hk, hsame]
    · exact h.kept write hwrite key hkey k hk

theorem Inv.advance (h : Inv number s) {task : Task} (htask : task ∈ s.tasks)
    (hgood : ∀ kiosk cfg, task.stage = .stores kiosk cfg →
      s.row.managed_config_version = kiosk.managed_config_version) :
    Inv number (s.advance number task) := by
  unfold State.advance
  split
  · refine ⟨h.current, h.ordered, fun other hother => ?_, h.kept⟩
    rcases List.mem_cons.1 hother with rfl | hother
    · exact h.current_mem
    · exact h.read other (List.mem_of_mem_filter hother)
  · exact h.proceed task h.current_mem
  · next kiosk body hstage _ =>
    have hread := h.read task htask
    rw [hstage] at hread
    split
    · exact h.frame rfl rfl fun _ => List.mem_of_mem_filter
    · next name _ =>
      have hrow : Inv number { s with row := { s.row with name, enabled := body "enabled" = some "1" } } :=
        h.frame rfl rfl fun _ hmem => hmem
      exact hrow.proceed task hread
  · exact h
  · next kiosk cfg hstage => exact h.update htask hstage (hgood kiosk cfg hstage)

theorem Inv.step (h : Inv number s) {label : Label} (hgood : Harmless s label)
    (hs : step number s label = some s') :
    Inv number s' := by
  cases label with
  | begins id request =>
    simp only [ManagedConfig.step] at hs
    split at hs
    · cases hs
    · obtain rfl := Option.some.inj hs
      refine ⟨h.current, h.ordered, fun task htask => ?_, h.kept⟩
      rcases List.mem_cons.1 htask with rfl | htask
      · trivial
      · exact h.read task htask
  | steps id =>
    obtain ⟨task, htask, rfl⟩ := Option.map_eq_some_iff.1 hs
    exact h.advance (List.mem_of_find?_eq_some htask) (hgood task htask)
  | reports managed_image capabilities applied error =>
    obtain rfl := Option.some.inj hs
    exact h.frame rfl rfl fun _ hmem => hmem

/-- In a run in which no configuration is stored between a handler's read and its write, every
configuration has a version of its own, and nothing is lost. -/
theorem versions_hold {row : Row} {labels : List Label}
    (hrun : Machine.run (step number) (.init row) labels = some s)
    (hgood : Machine.Along (step number) Harmless (.init row) labels) : Versioned s :=
  (hgood.inv (fun _ _ _ hlabel hs hi => Inv.step hi hlabel hs) hrun (Inv.init row)).versioned

/-! ### Two handlers -/

def lobby : Row := ⟨"Lobby", true, true, ["windows"], none, 0, 0, none⟩

def renamed : Body := fun key => if key = "name" then some "Foyer" else none

def policy : Body := fun key => if key = "volume" then some "1" else none

/-- A rename and then a policy. -/
def inTurn : List Label :=
  [.begins 0 (.rename renamed), .steps 0, .steps 0, .steps 0, .begins 1 (.windowsPolicy policy),
    .steps 1, .steps 1]

theorem versions_hold_in_turn :
    ∃ s, Machine.run (step fun _ => none) (.init lobby) inTurn = some s ∧ Versioned s := by
  have hreads : ∀ {s : State} {id : Nat} {task : Task}, s.tasks.find? (·.id = id) = some task →
      (∀ kiosk cfg, task.stage ≠ .stores kiosk cfg) → Harmless s (.steps id) := by
    intro s id task hfind hstage other hother kiosk cfg hstores
    obtain rfl := Option.some.inj (hfind.symm.trans hother)
    exact absurd hstores (hstage kiosk cfg)
  have hwrites : ∀ {s : State} {id : Nat} {task : Task} {kiosk : Row} {cfg : Config},
    s.tasks.find? (·.id = id) = some task →
      task.stage = .stores kiosk cfg → s.row.managed_config_version = kiosk.managed_config_version →
          Harmless s (.steps id) := by
    intro s id task kiosk cfg hfind hstage hversion other hother kiosk' cfg' hstores
    obtain rfl := Option.some.inj (hfind.symm.trans hother)
    obtain ⟨rfl, rfl⟩ := Stage.stores.inj (hstage.symm.trans hstores)
    exact hversion
  exact ⟨_, rfl, @versions_hold _ _ lobby inTurn rfl ⟨trivial, hreads rfl nofun, hreads rfl nofun,
    hwrites rfl rfl rfl, trivial, hreads rfl nofun, hwrites rfl rfl rfl, trivial⟩⟩

/-- A rename and a policy that were both read from version 0 are both stored as version 1. -/
theorem version_shared : ¬ ∀ (number : String → Option Int) (row : Row) (labels : List Label) (s : State),
    Machine.run (step number) (.init row) labels = some s → Versioned s := by
  intro h
  have hversioned := h (fun _ => none) lobby
    [.begins 0 (.rename renamed), .begins 1 (.windowsPolicy policy), .steps 0, .steps 0, .steps 1,
      .steps 0, .steps 1] _ rfl
  have hordered := (List.pairwise_cons.1 hversioned.ordered).1
  refine absurd ((hordered _ (List.mem_cons_self ..)).2 fun hsame => ?_) (Nat.lt_irrefl 1)
  have hkeys := congrArg (fun cfg => (cfg.getD []).map Prod.fst) hsame
  exact absurd hkeys (show ["windows_policy"] ≠ ["hostname"] by simp)

end ManagedConfig
