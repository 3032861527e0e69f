import BetterFrame.Lib.Doc
import BetterFrame.Lib.Run
import BetterFrame.Lib.Text
import Mathlib.Data.List.Nodup

/-!
# Display sessions

`scopeSocket` of `display-scope.cjs`: the filter in front of a display's socket, and the broadcasts
of the namespace whose adapter it patches. `display_confined` says what a display is sent and what
reaches a handler from it, and when the other sockets of the namespace do not notice.
-/

namespace DisplayScope

/-- What packets carry: JSON values with binary attachments. -/
abbrev Value := Doc (List UInt8)

/-- The last member of the key, as `JSON.parse` keeps it. -/
def member (k : String) : Value → Option Value
  | .obj ms => (ms.reverse.find? fun m => m.1 = k).map Prod.snd
  | _ => none

/-- `Object.entries(value || {})` -/
def entries : Option Value → List (String × Value)
  | some (.obj ms) => ms
  | some (.arr xs) => xs.zipIdx.map fun (x, i) => (toString i, x)
  | some (.str s) => s.toList.zipIdx.map fun (c, i) => (toString i, .str c.toString)
  | _ => []

/-- Truth of a value, where `undefined` is none. -/
def truthy : Option Value → Bool
  | none | some .null | some (.bool false) => false
  | some (.num n) => n.lit ≠ ['0']
  | some (.str s) => s ≠ ""
  | some _ => true

/-- A value as a property key. -/
def propertyKey : Option Value → String
  | none => "undefined"
  | some value => value.run
    { leaf := fun
        | .null => "null"
        | .bool b => if b then "true" else "false"
        | .num n => String.ofList n.lit
        | .str s => s
        | _ => "[object Object]"
      arr := fun xs => String.intercalate "," (xs.map fun
        | (.null, _) => ""
        | (_, s) => s)
      obj := fun _ => "[object Object]" }

/-- `===`; no two objects are the same. -/
def same : Option Value → Value → Bool
  | some .null, .null => true
  | some (.bool a), .bool b => a = b
  | some (.num a), .num b => a = b
  | some (.str a), .str b => a = b
  | _, _ => false

/-- `Object.hasOwn` with the key as a property. -/
def hasOwn (object : List (String × Value)) (key : Option Value) : Bool := object.any (·.1 = propertyKey key)

/-- Reading a property of null throws. -/
def read (k : String) : Value → Option (Option Value)
  | .null => none
  | value => some (member k value)

/-- The entries that `predicate` accepts, and nothing when it throws. -/
def subset (predicate : String → Value → Option Bool) : List (String × Value) → Option (List (String × Value))
  | [] => some []
  | (id, value) :: entries => do
    let keep ← predicate id value
    let rest ← subset predicate entries
    return if keep then (id, value) :: rest else rest

/-! ### The filter -/

/-- `id` is that of an acknowledgement. -/
structure Packet where
  type : Nat
  data : Option Value
  id : Option Nat

/-- Pages that are no strings name none. -/
structure Scope where
  pages : List String
  expires : Rat

/-- The scope grants nothing, or no longer. -/
def Scope.invalid (scope : Scope) (now : Int) : Bool := scope.pages.isEmpty || scope.expires ≤ now

/-- The pages of the scope and their configuration. -/
def filteredPages (pages : List String) (base config : Value) : Option (List (String × Value)) :=
  subset (fun id page =>
    if id ∈ pages then do
      let type ← read "type" page
      let ui ← read "ui" page
      return !same type (.str "ui-link") && same ui base
    else some false) (entries (member "pages" config))

/-- The groups on the pages kept. -/
def filteredGroups (pages : List (String × Value)) (config : Value) : Option (List (String × Value)) :=
  subset (fun _ group => do return hasOwn pages (← read "page" group)) (entries (member "groups" config))

/-- The widgets on the pages or in the groups kept. -/
def allowedWidgets (pages groups : List (String × Value)) (config : Value) : Option (List (String × Value)) :=
  subset (fun _ widget => do
    let src ← read "src" widget
    let props ← read "props" widget
    return !truthy src && (hasOwn groups (props.bind (member "group")) ||
      hasOwn pages (props.bind (member "page"))))
    (entries (member "widgets" config))

/-- What is left of a `ui-config`, and its widgets. -/
def scopedConfig (scope : Scope) (base config : Value) : Option (Value × List String) := do
  let pages ← filteredPages scope.pages base config
  let groups ← filteredGroups pages config
  let widgets ← allowedWidgets pages groups config
  let dashboards := (entries (member "dashboards" config)).filter fun dashboard =>
    same (some base) (.str dashboard.1)
  let themes := (entries (member "themes" config)).filter fun theme =>
    pages.any fun page => same (member "theme" page.2) (.str theme.1)
  return (.obj [("meta", .obj []), ("heads", .obj []), ("dashboards", .obj dashboards), ("pages", .obj pages),
    ("groups", .obj groups), ("widgets", .obj widgets), ("themes", .obj themes)], widgets.map Prod.fst)

/-- `typeof` is object, null apart. -/
def isObject : Value → Bool
  | .obj _ | .arr _ | .hole _ => true
  | _ => false

/-- The event prefixes that name a widget. -/
def kinds : List String := ["widget-load", "widget-sync", "msg-input"]

/-- `/^(?:widget-load|widget-sync|msg-input):(.+)$/` -/
def widgetOf (event : String) : Option String :=
  kinds.findSome? fun kind =>
    match (kind.toList ++ [':']).isPrefixOf? event.toList with
    | some rest => if rest ≠ [] ∧ rest.all (!Text.isLineTerminator ·) then some (String.ofList rest) else none
    | none => none

/-- What a scoped socket remembers: its scope, and the widgets of the last configuration it was sent. -/
structure Guard where
  scope : Scope
  widgets : List String

/-- What the guard does with a packet. -/
inductive Filtered where
  | throws
  | closes
  | drops
  | passes (packet : Packet) (widgets : List String)

/-- What becomes of a packet on its way to a display. -/
def Guard.filter (guard : Guard) (now : Int) (packet : Packet) : Filtered :=
  if guard.scope.expires ≤ now then .closes
  else if packet.type = 0 ∨ packet.type = 1 then .passes packet guard.widgets
  else if packet.type ≠ 2 ∧ packet.type ≠ 5 then .drops
  else
    match packet.data with
    | some (.arr (.str event :: args)) =>
      if event = "ui-config" then
        match args with
        | base :: config :: _ =>
          if isObject config then
            match scopedConfig guard.scope base config with
            | none => .throws
            | some (config, widgets) =>
              .passes { packet with data := some (.arr [.str event, base, config]) } widgets
          else .drops
        | _ => .drops
      else
        match widgetOf event with
        | some widget => if widget ∈ guard.widgets then .passes packet guard.widgets else .drops
        | none => .drops
    | _ => .drops

/-- What a display may send. -/
def inboundEvents : List String := ["widget-send", "widget-action", "widget-change", "widget-load"]

/-- An event of a display about one of its own widgets. -/
def Guard.admits (guard : Guard) (event : String) (args : List Value) : Bool :=
  inboundEvents.contains event &&
    match args with
    | .str widget :: _ => guard.widgets.contains widget
    | _ => false

/-! ### The namespace -/

/-- A socket, and the guard that its display has put on it. -/
structure Socket where
  id : String
  connected : Bool
  rooms : List String
  guard : Option Guard

/-- The rooms that a broadcast goes to, and those it leaves out. -/
structure Options where
  rooms : List String
  except : List String

/-- What happened to a socket, with the reading of the clock. -/
inductive Entry where
  | sent (id : String) (packet : Packet) (time : Int)
  | handled (id : String) (event : String) (args : List Value) (time : Int)
  | closed (id : String) (time : Int)

def Entry.id : Entry → String
  | .sent id _ _ | .handled id _ _ _ | .closed id _ => id

/-- `adapterGuard` says whether the adapter is patched. The log is that of the whole run, the latest
entry last. -/
structure State where
  now : Int
  adapterGuard : Bool
  sockets : List Socket
  log : List Entry

/-- A visit of `adapter.apply` to a recipient and the time of it. -/
abbrev Visit := String × Int

/-- What the server and the other end of a socket do. -/
inductive Label where
  | connects (id : String) (scope : Option Scope) (time : Int)
  | disconnects (id : String)
  | joins (id room : String)
  | leaves (id room : String)
  | emits (id : String) (packet : Packet) (time : Int)
  | broadcasts (packet : Packet) (options : Options) (visits : List Visit)
  | broadcastsWithAck (packet : Packet) (options : Options) (visits : List Visit)
  | receives (id : String) (event : String) (args : List Value) (time : Int)
  | expires (id : String) (time : Int)

/-- The socket is in one of the rooms and in none of the excluded ones. -/
def Options.addresses (options : Options) (socket : Socket) : Bool :=
  socket.connected && (options.rooms.isEmpty || options.rooms.any (· ∈ socket.rooms)) &&
    !options.except.any (· ∈ socket.rooms)

/-- The options with more sockets excluded. -/
def Options.excluding (options : Options) (excluded : List String) : Options :=
  { options with except := options.except ++ excluded }

namespace State

variable (s : State)

def init (now : Int) : State := ⟨now, false, [], []⟩

/-- The connected socket of the id. -/
def socket (id : String) : Option Socket := s.sockets.find? fun socket => socket.id = id && socket.connected

def update (id : String) (f : Socket → Socket) : State :=
  { s with sockets := s.sockets.map fun socket => if socket.id = id then f socket else socket }

def push (entry : Entry) : State := { s with log := s.log ++ [entry] }

/-- The sockets a broadcast is for. -/
def recipients (options : Options) : List String := (s.sockets.filter options.addresses).map (·.id)

/-- `socket.packet`, and nothing when the filter throws. -/
def packet (id : String) (packet : Packet) (time : Int) : Option State :=
  match s.socket id with
  | none => some s
  | some socket =>
    match socket.guard with
    | none => some (s.push (.sent id packet time))
    | some guard =>
      match guard.filter time packet with
      | .throws => none
      | .closes => some (s.push (.closed id time))
      | .drops => some s
      | .passes packet widgets =>
        some ((s.update id fun socket => { socket with guard := some { guard with widgets } }).push
          (.sent id packet time))

/-- The socket belongs to a display. -/
def guarded (id : String) : Bool := s.sockets.any fun socket => socket.id = id && socket.guard.isSome

/-- The adapter's own `broadcast`, which sends to every recipient. -/
def originalBroadcast (packet : Packet) (options : Options) (visits : List Visit) : State :=
  { s with log := s.log ++
      (visits.filter fun visit => visit.1 ∈ s.recipients options).map fun visit =>
        .sent visit.1 packet visit.2 }

/-- The visits to scoped recipients, up to one at which the filter throws. -/
def applyScoped (given : Packet) : List Visit → State → State × Bool
  | [], s => (s, true)
  | visit :: visits, s =>
    if s.guarded visit.1 then
      match s.packet visit.1 given visit.2 with
      | none => (s, false)
      | some s => applyScoped given visits s
    else applyScoped given visits s

/-- A broadcast: the displays one by one under their guards, the others as ever. -/
def broadcast (packet : Packet) (options : Options) (visits : List Visit) : State :=
  if s.adapterGuard then
    let (s', completed) := applyScoped packet visits s
    if completed then
      s'.originalBroadcast packet (options.excluding ((visits.map Prod.fst).filter s.guarded)) visits
    else s'
  else s.originalBroadcast packet options visits

/-- A broadcast that waits for answers leaves the displays out. -/
def broadcastWithAck (packet : Packet) (options : Options) (visits : List Visit) : State :=
  if s.adapterGuard then
    let displays := s.sockets.filter fun socket => socket.connected && socket.guard.isSome
    s.originalBroadcast packet (options.excluding (displays.map (·.id))) visits
  else s.originalBroadcast packet options visits

/-- An event from a socket, which its guard admits or not. -/
def receive (id : String) (event : String) (args : List Value) (time : Int) : State :=
  match s.socket id with
  | none => s
  | some socket =>
    match socket.guard with
    | none => s.push (.handled id event args time)
    | some guard =>
      if guard.scope.expires ≤ time then s.push (.closed id time)
      else if guard.admits event args then s.push (.handled id event args time)
      else s

/-- The visits are to the recipients, each once, and the clock does not go back. -/
def visitable (options : Options) (visits : List Visit) : Bool :=
  (visits.map Prod.fst).isPerm (s.recipients options) && visits.all (s.now ≤ ·.2) &&
    decide ((visits.map Prod.snd).Pairwise (· ≤ ·))

end State

/-- One step of the namespace; with `guarding` off no socket is guarded. -/
def step (guarding : Bool) (s : State) : Label → Option State
  | .connects id scope time =>
    if time < s.now ∨ s.sockets.any (·.id = id) then none
    else if scope.any (·.invalid time) then some { s with now := time }
    else
      let scope := if guarding then scope else none
      some { s with
        now := time
        adapterGuard := s.adapterGuard || scope.isSome
        sockets := s.sockets ++ [⟨id, true, [id], scope.map fun scope => ⟨scope, []⟩⟩] }
  | .disconnects id => some (s.update id fun socket => { socket with connected := false, rooms := [] })
  | .joins id room => some (s.update id fun socket => { socket with rooms := room :: socket.rooms })
  | .leaves id room =>
    some (s.update id fun socket => { socket with rooms := socket.rooms.filter (· ≠ room) })
  | .emits id packet time =>
    if time < s.now then none
    else
      let s := { s with now := time }
      some ((s.packet id packet time).getD s)
  | .broadcasts packet options visits =>
    if s.visitable options visits then
      some { s.broadcast packet options visits with now := visits.foldl (fun _ visit => visit.2) s.now }
    else none
  | .broadcastsWithAck packet options visits =>
    if s.visitable options visits then
      some { s.broadcastWithAck packet options visits with
        now := visits.foldl (fun _ visit => visit.2) s.now }
    else none
  | .receives id event args time =>
    if time < s.now then none
    else some ({ s with now := time }.receive id event args time)
  | .expires id time =>
    if time < s.now then none
    else
      let s := { s with now := time }
      some (if (s.socket id).any (·.guard.isSome) then s.push (.closed id time) else s)

/-! ### What a display may be sent -/

/-- The value names one of the entries, as a property key. -/
def LiesOn (key : Option Value) (ids : List (String × Value)) : Prop :=
  ∃ entry ∈ ids, entry.1 = propertyKey key

/-- A configuration for the dashboard `base` that shows nothing but `pages`. -/
structure Shows (pages : List String) (base config : Value) : Prop where
  pages : ∀ page ∈ entries (member "pages" config), page.1 ∈ pages ∧ member "ui" page.2 = some base
  groups : ∀ group ∈ entries (member "groups" config),
    LiesOn (member "page" group.2) (entries (member "pages" config))
  widgets : ∀ widget ∈ entries (member "widgets" config), truthy (member "src" widget.2) = false ∧
    (LiesOn ((member "props" widget.2).bind (member "group")) (entries (member "groups" config)) ∨
      LiesOn ((member "props" widget.2).bind (member "page")) (entries (member "pages" config)))
  themes : ∀ theme ∈ entries (member "themes" config), ∃ page ∈ entries (member "pages" config),
    member "theme" page.2 = some (.str theme.1)

/-- An event, with binary parts or without. -/
def Packet.isEvent (packet : Packet) : Prop := packet.type = 2 ∨ packet.type = 5

instance (packet : Packet) : Decidable packet.isEvent := inferInstanceAs (Decidable (_ ∨ _))

/-- The widgets that a `ui-config` announces. -/
def Packet.announces (packet : Packet) : Option (List String) :=
  if packet.isEvent then
    match packet.data with
    | some (.arr (.str "ui-config" :: _ :: config :: _)) =>
      some ((entries (member "widgets" config)).map Prod.fst)
    | _ => none
  else none

/-- The pages an entry announces to the socket. -/
def Entry.announces (id : String) : Entry → Option (List String)
  | .sent id' packet _ => if id' = id then packet.announces else none
  | _ => none

/-- The widgets of the last configuration that was sent to the socket. -/
def lastWidgets (id : String) (log : List Entry) : List String :=
  ((log.filterMap (Entry.announces id)).getLast?).getD []

/-- A CONNECT or DISCONNECT, a configuration within the scope, or an event of a widget of the last one. -/
inductive Allowed (scope : Scope) (widgets : List String) (packet : Packet) : Prop where
  | control (h : packet.type = 0 ∨ packet.type = 1)
  | config (base config : Value) (h : packet.isEvent)
      (hdata : packet.data = some (.arr [.str "ui-config", base, config]))
        (hshows : Shows scope.pages base config)
  | widget (kind widget : String) (args : List Value) (h : packet.isEvent)
      (hdata : packet.data = some (.arr (.str (kind ++ ":" ++ widget) :: args))) (hkind : kind ∈ kinds)
      (hwidget : widget ∈ widgets)

/-- What may happen to a socket with the scope after `before`. -/
def Admissible (scope : Scope) (before : List Entry) : Entry → Prop
  | .sent id packet time => time < scope.expires ∧ Allowed scope (lastWidgets id before) packet
  | .handled id event args time => time < scope.expires ∧ event ∈ inboundEvents ∧
    ∃ widget rest, args = .str widget :: rest ∧ widget ∈ lastWidgets id before
  | .closed _ _ => True

/-- Everything in the log that is about a scoped socket was admissible when it happened. -/
def State.Confined (s : State) : Prop :=
  ∀ before entry after, s.log = before ++ entry :: after →
    ∀ socket ∈ s.sockets, socket.id = entry.id → ∀ guard ∈ socket.guard, Admissible guard.scope before entry

/-- No page of the scope, no group and no widget of a configuration in the packet is null. -/
def Readable (pages : List String) (packet : Packet) : Prop :=
  packet.isEvent → ∀ base config rest,
    packet.data = some (.arr (.str "ui-config" :: base :: config :: rest)) →
    (∀ page ∈ entries (member "pages" config), page.1 ∈ pages → page.2 ≠ .null) ∧
    (∀ group ∈ entries (member "groups" config), group.2 ≠ .null) ∧
    ∀ widget ∈ entries (member "widgets" config), widget.2 ≠ .null

/-- What goes through the namespace as if no socket were guarded: the displays that a broadcast
addresses are in the rooms of their own, the other sockets are in none of these, and the filters of
the displays do not throw. -/
def Harmless (s : State) : Label → Prop
  | .broadcasts packet options visits =>
    (∀ display ∈ s.sockets, options.addresses display → display.guard.isSome → display.id ∈ display.rooms) ∧
    ∀ socket ∈ s.sockets, options.addresses socket → socket.guard = none →
      ∀ display ∈ s.sockets, options.addresses display → ∀ guard ∈ display.guard,
        display.id ∉ socket.rooms ∧
          ∀ time : Int, (display.id, time) ∈ visits → time < guard.scope.expires →
            Readable guard.scope.pages packet
  | .broadcastsWithAck _ options _ =>
    (∀ display ∈ s.sockets, options.addresses display → display.guard.isSome → display.id ∈ display.rooms) ∧
    ∀ socket ∈ s.sockets, options.addresses socket → socket.guard = none →
      ∀ display ∈ s.sockets, display.connected → display.guard.isSome → display.id ∉ socket.rooms
  | _ => True

/-! ### What the filter lets through -/

section filter

variable {pages groups ms : List (String × Value)} {p : String → Value → Option Bool} {base config : Value}

theorem mem_subset (h : subset p ms = some pages) {m : String × Value} : m ∈ pages ↔ m ∈ ms ∧
    p m.1 m.2 = some true := by
  induction ms generalizing pages with
  | nil =>
    obtain rfl := Option.some.inj h
    simp
  | cons n ms ih =>
    obtain ⟨keep, hkeep, h⟩ := Option.bind_eq_some_iff.1 h
    obtain ⟨rest, hrest, h⟩ := Option.bind_eq_some_iff.1 h
    obtain rfl := Option.some.inj h
    have hm := ih hrest
    cases keep with
    | false =>
      refine hm.trans ⟨fun ⟨hin, hp⟩ => ⟨List.mem_cons_of_mem _ hin, hp⟩, fun ⟨hin, hp⟩ => ?_⟩
      rcases List.mem_cons.1 hin with rfl | hin
      · rw [hkeep] at hp
        cases hp
      · exact ⟨hin, hp⟩
    | true =>
      show m ∈ n :: rest ↔ _
      rw [List.mem_cons, List.mem_cons, hm]
      constructor
      · rintro (rfl | ⟨hin, hp⟩)
        · exact ⟨.inl rfl, hkeep⟩
        · exact ⟨.inr hin, hp⟩
      · rintro ⟨rfl | hin, hp⟩
        · exact .inl rfl
        · exact .inr ⟨hin, hp⟩

theorem subset_ne_none (h : ∀ m ∈ ms, p m.1 m.2 ≠ none) : subset p ms ≠ none := by
  induction ms with
  | nil => simp [subset]
  | cons m ms ih =>
    obtain ⟨keep, hkeep⟩ := Option.ne_none_iff_exists'.1 (h m (List.mem_cons_self ..))
    obtain ⟨rest, hrest⟩ := Option.ne_none_iff_exists'.1 (ih fun n hn => h n (List.mem_cons_of_mem _ hn))
    simp [subset, hkeep, hrest]

theorem read_eq_some {k : String} {value : Value} {v : Option Value} (h : read k value = some v) :
    v = member k value := by
  cases value <;> first | exact (Option.some.inj h).symm | cases h

theorem read_of_ne {k : String} {value : Value} (h : value ≠ .null) :
    read k value = some (member k value) := by
  cases value <;> first | exact absurd rfl h | rfl

theorem same_eq {v : Option Value} {w : Value} (h : same v w = true) : v = some w := by
  unfold same at h
  split at h <;> simp_all

theorem hasOwn_iff {key : Option Value} : hasOwn ms key = true ↔ LiesOn key ms := by
  simp [hasOwn, LiesOn]

theorem filteredPages_mem {ids : List String} (h : filteredPages ids base config = some pages)
    {page : String × Value}
    (hpage : page ∈ pages) : page.1 ∈ ids ∧ member "ui" page.2 = some base := by
  have hp := ((mem_subset h).1 hpage).2
  split at hp
  · next hid =>
    obtain ⟨type, -, hp⟩ := Option.bind_eq_some_iff.1 hp
    obtain ⟨ui, hui, hp⟩ := Option.bind_eq_some_iff.1 hp
    have hand := Option.some.inj hp
    simp only [Bool.and_eq_true] at hand
    exact ⟨hid, by rw [← read_eq_some hui, same_eq hand.2]⟩
  · cases hp

theorem filteredGroups_mem (h : filteredGroups pages config = some groups) {group : String × Value}
    (hgroup : group ∈ groups) : LiesOn (member "page" group.2) pages := by
  obtain ⟨page, hpage, hp⟩ := Option.bind_eq_some_iff.1 ((mem_subset h).1 hgroup).2
  rw [← read_eq_some hpage]
  exact hasOwn_iff.1 (Option.some.inj hp)

theorem allowedWidgets_mem {widgets : List (String × Value)}
    (h : allowedWidgets pages groups config = some widgets)
    {widget : String × Value} (hwidget : widget ∈ widgets) : truthy (member "src" widget.2) = false ∧
      (LiesOn ((member "props" widget.2).bind (member "group")) groups ∨
        LiesOn ((member "props" widget.2).bind (member "page")) pages) := by
  obtain ⟨src, hsrc, hp⟩ := Option.bind_eq_some_iff.1 ((mem_subset h).1 hwidget).2
  obtain ⟨props, hprops, hp⟩ := Option.bind_eq_some_iff.1 hp
  have hand := Option.some.inj hp
  simp only [Bool.and_eq_true, Bool.or_eq_true, Bool.not_eq_true', hasOwn_iff] at hand
  rwa [read_eq_some hsrc, read_eq_some hprops] at hand

theorem scopedConfig_shows {scope : Scope} {shown : Value} {widgets : List String}
    (h : scopedConfig scope base config = some (shown, widgets)) :
    Shows scope.pages base shown ∧ widgets = (entries (member "widgets" shown)).map Prod.fst := by
  obtain ⟨pages, hpages, h⟩ := Option.bind_eq_some_iff.1 h
  obtain ⟨groups, hgroups, h⟩ := Option.bind_eq_some_iff.1 h
  obtain ⟨allowed, hallowed, h⟩ := Option.bind_eq_some_iff.1 h
  obtain ⟨rfl, rfl⟩ := Prod.mk.inj (Option.some.inj h)
  refine ⟨⟨?_, ?_, ?_, ?_⟩, rfl⟩
  · exact fun page hpage => filteredPages_mem hpages hpage
  · exact fun group hgroup => filteredGroups_mem hgroups hgroup
  · exact fun widget hwidget => allowedWidgets_mem hallowed hwidget
  · intro theme htheme
    obtain ⟨page, hpage, hsame⟩ := List.any_eq_true.1 (List.mem_filter.1 htheme).2
    exact ⟨page, hpage, same_eq hsame⟩

/-- What a filter reads of a readable packet it can read. -/
theorem scopedConfig_ne_none {scope : Scope}
    (hpages : ∀ page ∈ entries (member "pages" config), page.1 ∈ scope.pages → page.2 ≠ .null)
    (hgroups : ∀ group ∈ entries (member "groups" config), group.2 ≠ .null)
    (hwidgets : ∀ widget ∈ entries (member "widgets" config), widget.2 ≠ .null) :
    scopedConfig scope base config ≠ none := by
  have h₁ : filteredPages scope.pages base config ≠ none := subset_ne_none fun page hpage => by
    split
    · next hid => simp [read_of_ne (hpages page hpage hid)]
    · simp
  obtain ⟨pages, hp⟩ := Option.ne_none_iff_exists'.1 h₁
  have h₂ : filteredGroups pages config ≠ none := subset_ne_none fun group hgroup => by
    simp [read_of_ne (hgroups group hgroup)]
  obtain ⟨groups, hg⟩ := Option.ne_none_iff_exists'.1 h₂
  have h₃ : allowedWidgets pages groups config ≠ none := subset_ne_none fun widget hwidget => by
    simp [read_of_ne (hwidgets widget hwidget)]
  obtain ⟨widgets, hw⟩ := Option.ne_none_iff_exists'.1 h₃
  simp [scopedConfig, hp, hg, hw]

end filter

theorem widgetOf_eq {event widget : String} (h : widgetOf event = some widget) :
    ∃ kind ∈ kinds, event = kind ++ ":" ++ widget := by
  obtain ⟨kind, hkind, h⟩ := List.exists_of_findSome?_eq_some h
  refine ⟨kind, hkind, ?_⟩
  split at h
  · next rest hrest =>
    split at h
    · obtain rfl := Option.some.inj h
      have hlist := (List.isPrefixOf?_eq_some_iff_append_eq.1 hrest).symm
      apply String.ext
      simpa using hlist
    · cases h
  · cases h

theorem announces_of_ne {packet : Packet} {event : String} {args : List Value}
    (hdata : packet.data = some (.arr (.str event :: args))) (h : event ≠ "ui-config") :
    packet.announces = none := by
  unfold Packet.announces
  split
  · split
    · next heq =>
      rw [hdata] at heq
      simp_all
    · rfl
  · rfl

/-- A packet that the filter lets through is allowed, and the guard remembers the widgets that it
announces. -/
theorem Guard.filter_passes {guard : Guard} {now : Int} {given packet : Packet} {widgets : List String}
    (h : guard.filter now given = .passes packet widgets) : now < guard.scope.expires ∧
      Allowed guard.scope guard.widgets packet ∧ widgets = packet.announces.getD guard.widgets := by
  unfold Guard.filter at h
  split at h
  · cases h
  next hlive =>
  refine ⟨Rat.not_le.1 hlive, ?_⟩
  split at h
  · next htype =>
    obtain ⟨rfl, rfl⟩ := Filtered.passes.inj h
    refine ⟨.control htype, ?_⟩
    have hnot : ¬ given.isEvent := by
      rintro (hevent | hevent) <;> omega
    simp [Packet.announces, hnot]
  split at h
  · cases h
  next htype =>
  have hevent : given.isEvent := by
    unfold Packet.isEvent
    omega
  split at h
  · next event args hdata =>
    split at h
    · next hconfig =>
      split at h
      · next base config rest =>
        split at h
        · split at h
          · cases h
          · next shown widgets' hscoped =>
            obtain ⟨rfl, rfl⟩ := Filtered.passes.inj h
            obtain ⟨hshows, hwidgets⟩ := scopedConfig_shows hscoped
            subst hconfig
            refine ⟨.config base shown hevent rfl hshows, ?_⟩
            have hannounces : Packet.announces
              { given with data := some (.arr [.str "ui-config", base, shown]) } =
                some ((entries (member "widgets" shown)).map Prod.fst) := if_pos hevent
            rw [hannounces]
            exact hwidgets
        · cases h
      · cases h
    · next hconfig =>
      split at h
      · next widget hwidget =>
        split at h
        · next hmem =>
          obtain ⟨rfl, rfl⟩ := Filtered.passes.inj h
          obtain ⟨kind, hkind, rfl⟩ := widgetOf_eq hwidget
          refine ⟨.widget kind widget args hevent hdata hkind hmem, ?_⟩
          rw [announces_of_ne hdata hconfig]
          rfl
        · cases h
      · cases h
  · cases h

/-- The filter throws at nothing that it can read. -/
theorem Guard.filter_ne_throws {guard : Guard} {now : Int} {packet : Packet}
    (h : now < guard.scope.expires → Readable guard.scope.pages packet) :
    guard.filter now packet ≠ .throws := by
  intro hthrows
  unfold Guard.filter at hthrows
  split at hthrows
  · cases hthrows
  next hlive =>
  split at hthrows
  · cases hthrows
  split at hthrows
  · cases hthrows
  next htype =>
  have hevent : packet.isEvent := by
    unfold Packet.isEvent
    omega
  split at hthrows
  · next event args hdata =>
    split at hthrows
    · next hconfig =>
      split at hthrows
      · next base config rest =>
        split at hthrows
        · split at hthrows
          · next hnone =>
            subst hconfig
            obtain ⟨hpages, hgroups, hwidgets⟩ := h (Rat.not_le.1 hlive) hevent base config rest hdata
            exact scopedConfig_ne_none hpages hgroups hwidgets hnone
          · cases hthrows
        · cases hthrows
      · cases hthrows
    · split at hthrows
      · split at hthrows <;> cases hthrows
      · cases hthrows
  · cases hthrows

/-! ### The log of a display -/

theorem lastWidgets_append {id : String} {log : List Entry} {entry : Entry} :
    lastWidgets id (log ++ [entry]) = (entry.announces id).getD (lastWidgets id log) := by
  simp only [lastWidgets, List.filterMap_append]
  cases h : entry.announces id with
  | none => simp [h]
  | some widgets => simp [h]

theorem announces_of_id_ne {id : String} {entry : Entry} (h : entry.id ≠ id) : entry.announces id = none := by
  cases entry with
  | sent id' packet time => exact if_neg h
  | handled | closed => rfl

theorem lastWidgets_eq_nil {id : String} {log : List Entry} (h : ∀ entry ∈ log, entry.id ≠ id) :
    lastWidgets id log = [] := by
  have hnil : log.filterMap (Entry.announces id) = [] :=
    List.filterMap_eq_nil_iff.2 fun entry hentry => announces_of_id_ne (h entry hentry)
  simp [lastWidgets, hnil]

namespace State

/-- Every guarded socket has passed only what its display shows, and keeps the widgets it was last
told of. -/
structure Inv (s : State) : Prop where
  nodup : (s.sockets.map (·.id)).Nodup
  patched : ∀ socket ∈ s.sockets, socket.guard.isSome → s.adapterGuard = true
  known : ∀ entry ∈ s.log, ∃ socket ∈ s.sockets, socket.id = entry.id
  widgets : ∀ socket ∈ s.sockets, ∀ guard ∈ socket.guard, guard.widgets = lastWidgets socket.id s.log
  confined : s.Confined

variable {s s' t : State} {id : String} {given : Packet} {time : Int} {options : Options}
  {visits : List Visit}

theorem Inv.init (now : Int) : (init now).Inv where
  nodup := List.nodup_nil
  patched := by simp [State.init]
  known := by simp [State.init]
  widgets := by simp [State.init]
  confined before entry after h := by simp [State.init] at h

theorem Inv.unique (h : s.Inv) {a b : Socket} (ha : a ∈ s.sockets) (hb : b ∈ s.sockets)
    (hid : a.id = b.id) : a = b :=
  List.inj_on_of_nodup_map h.nodup ha hb hid

theorem mem_of_socket {socket : Socket} (h : s.socket id = some socket) :
    socket ∈ s.sockets ∧ socket.id = id ∧ socket.connected = true := by
  have hp := List.find?_some h
  simp only [Bool.and_eq_true, decide_eq_true_eq] at hp
  exact ⟨List.mem_of_find?_eq_some h, hp⟩

theorem mem_update {f : Socket → Socket} {socket : Socket} :
    socket ∈ (s.update id f).sockets ↔ ∃ old ∈ s.sockets, (if old.id = id then f old else old) = socket :=
  List.mem_map

theorem guarded_iff : s.guarded id = true ↔ ∃ socket ∈ s.sockets, socket.id = id ∧ socket.guard.isSome := by
  simp [guarded]

theorem guard_eq_none (h : s.guarded id = false) {socket : Socket} (hsocket : socket ∈ s.sockets)
    (hid : socket.id = id) :
    socket.guard = none := by
  by_contra hne
  have hguarded := guarded_iff.2 ⟨socket, hsocket, hid, Option.isSome_iff_ne_none.2 hne⟩
  simp [h] at hguarded

/-- An entry of a log that one was added to is that one, or it was there before. -/
theorem split_concat {log before after : List Entry} {entry last : Entry}
    (h : log ++ [last] = before ++ entry :: after) :
    (before = log ∧ entry = last) ∨ ∃ after', log = before ++ entry :: after' := by
  rcases List.eq_nil_or_concat after with rfl | ⟨after', x, rfl⟩
  · obtain ⟨rfl, hlast⟩ := List.append_inj' h rfl
    exact .inl ⟨rfl, (List.singleton_inj.1 hlast).symm⟩
  · refine .inr ⟨after', ?_⟩
    rw [List.concat_eq_append, ← List.cons_append, ← List.append_assoc] at h
    exact (List.append_inj' h rfl).1

/-- An entry is added to the log, and guards change what they remember of the widgets. -/
theorem Inv.extend (h : s.Inv) (entry : Entry) (f : Socket → Socket)
    (hid : ∀ socket, (f socket).id = socket.id)
    (hguard : ∀ socket ∈ s.sockets, ∀ guard ∈ (f socket).guard,
    ∃ old ∈ socket.guard, old.scope = guard.scope ∧
      guard.widgets = (entry.announces socket.id).getD (lastWidgets socket.id s.log) ∧
      (socket.id = entry.id → Admissible guard.scope s.log entry))
    (hknown : ∃ socket ∈ s.sockets, socket.id = entry.id) :
    Inv { s with sockets := s.sockets.map f, log := s.log ++ [entry] } where
  nodup := by
    simpa [List.map_map, Function.comp_def, hid] using h.nodup
  patched socket hsocket hsome := by
    obtain ⟨old, hold, rfl⟩ := List.mem_map.1 hsocket
    obtain ⟨guard, hg⟩ := Option.isSome_iff_exists.1 hsome
    obtain ⟨guard', hg', -⟩ := hguard old hold guard hg
    exact h.patched old hold (Option.isSome_iff_exists.2 ⟨guard', hg'⟩)
  known e he := by
    have hold : ∃ socket ∈ s.sockets, socket.id = e.id := by
      rcases List.mem_append.1 he with he | he
      · exact h.known e he
      · rwa [List.mem_singleton.1 he]
    obtain ⟨socket, hsocket, hid'⟩ := hold
    exact ⟨f socket, List.mem_map_of_mem hsocket, (hid socket).trans hid'⟩
  widgets socket hsocket guard hg := by
    obtain ⟨old, hold, rfl⟩ := List.mem_map.1 hsocket
    obtain ⟨guard', -, -, hwidgets, -⟩ := hguard old hold guard hg
    rw [hwidgets, hid, lastWidgets_append]
  confined before e after heq socket hsocket hid' guard hg := by
    obtain ⟨old, hold, rfl⟩ := List.mem_map.1 hsocket
    rw [hid] at hid'
    obtain ⟨guard', hg', hscope, -, hadmissible⟩ := hguard old hold guard hg
    rcases split_concat heq with ⟨rfl, rfl⟩ | ⟨after', heq⟩
    · exact hadmissible hid'
    · rw [← hscope]
      exact h.confined before e after' heq old hold hid' guard' hg'

theorem Inv.push (h : s.Inv) {entry : Entry} (hknown : ∃ socket ∈ s.sockets, socket.id = entry.id)
    (hentry : ∀ socket ∈ s.sockets, socket.id = entry.id → ∀ guard ∈ socket.guard,
      entry.announces socket.id = none ∧ Admissible guard.scope s.log entry) : (s.push entry).Inv := by
  have hinv := h.extend entry (fun socket => socket) (fun _ => rfl) (fun socket hsocket guard hg => by
    refine ⟨guard, hg, rfl, ?_, fun hid => (hentry socket hsocket hid guard hg).2⟩
    by_cases hid : socket.id = entry.id
    · rw [(hentry socket hsocket hid guard hg).1]
      exact h.widgets socket hsocket guard hg
    · rw [announces_of_id_ne fun heq => hid heq.symm]
      exact h.widgets socket hsocket guard hg) hknown
  simpa [State.push] using hinv

theorem Inv.push_unguarded (h : s.Inv) {entry : Entry} {socket : Socket} (hsocket : socket ∈ s.sockets)
    (hid : socket.id = entry.id) (hguard : socket.guard = none) : (s.push entry).Inv := by
  refine h.push ⟨socket, hsocket, hid⟩ fun other hother hid' guard hg => ?_
  rw [h.unique hother hsocket (hid'.trans hid.symm), hguard] at hg
  cases hg

theorem Inv.push_closed (h : s.Inv) {socket : Socket} (hsocket : socket ∈ s.sockets) (hid : socket.id = id) :
    (s.push (.closed id time)).Inv :=
  h.push ⟨socket, hsocket, hid⟩ fun _ _ _ _ _ => ⟨rfl, trivial⟩

/-- Sockets join, leave and disconnect. -/
theorem Inv.update (h : s.Inv) {f : Socket → Socket} (hid : ∀ socket, (f socket).id = socket.id)
    (hguard : ∀ socket, (f socket).guard = socket.guard) : (s.update id f).Inv := by
  have hupdate : ∀ socket, (if socket.id = id then f socket else socket).id = socket.id ∧
      (if socket.id = id then f socket else socket).guard = socket.guard := by
    intro socket
    split
    · exact ⟨hid socket, hguard socket⟩
    · exact ⟨rfl, rfl⟩
  refine ⟨?_, ?_, ?_, ?_, ?_⟩
  · simpa [State.update, List.map_map, Function.comp_def, hupdate] using h.nodup
  · intro socket hsocket hsome
    obtain ⟨old, hold, rfl⟩ := mem_update.1 hsocket
    exact h.patched old hold ((hupdate old).2 ▸ hsome)
  · intro entry hentry
    obtain ⟨socket, hsocket, hid'⟩ := h.known entry hentry
    exact ⟨_, mem_update.2 ⟨socket, hsocket, rfl⟩, (hupdate socket).1.trans hid'⟩
  · intro socket hsocket guard hg
    obtain ⟨old, hold, rfl⟩ := mem_update.1 hsocket
    rw [(hupdate old).2] at hg
    rw [(hupdate old).1]
    exact h.widgets old hold guard hg
  · intro before entry after heq socket hsocket hid' guard hg
    obtain ⟨old, hold, rfl⟩ := mem_update.1 hsocket
    rw [(hupdate old).2] at hg
    rw [(hupdate old).1] at hid'
    exact h.confined before entry after heq old hold hid' guard hg

theorem Inv.packet (h : s.Inv) (hs : s.packet id given time = some s') : s'.Inv := by
  unfold State.packet at hs
  split at hs
  · exact Option.some.inj hs ▸ h
  next socket hsocket =>
  obtain ⟨hmem, hid, -⟩ := mem_of_socket hsocket
  split at hs
  · next hguard =>
    obtain rfl := Option.some.inj hs
    exact h.push_unguarded hmem hid hguard
  next guard hguard =>
  split at hs
  · cases hs
  · obtain rfl := Option.some.inj hs
    exact h.push_closed hmem hid
  · exact Option.some.inj hs ▸ h
  · next packet widgets hpasses =>
    obtain rfl := Option.some.inj hs
    obtain ⟨hlive, hallowed, hwidgets⟩ := Guard.filter_passes hpasses
    have hlast := h.widgets socket hmem guard hguard
    subst hid
    refine h.extend (.sent socket.id packet time)
      (fun other => if other.id = socket.id then { other with guard := some { guard with widgets } }
        else other)
      (fun other => by split <;> rfl) (fun other hother guard' hg => ?_) ⟨socket, hmem, rfl⟩
    by_cases hother' : other.id = socket.id
    · obtain rfl := h.unique hother hmem hother'
      rw [if_pos rfl] at hg
      obtain rfl := Option.some.inj hg
      refine ⟨guard, hguard, rfl, ?_, fun _ => ⟨hlive, hlast ▸ hallowed⟩⟩
      rw [← hlast]
      simpa [Entry.announces] using hwidgets
    · rw [if_neg hother'] at hg
      refine ⟨guard', hg, rfl, ?_, fun hid => absurd hid hother'⟩
      have hne : (Entry.sent socket.id packet time).id ≠ other.id := fun heq => hother' heq.symm
      rw [announces_of_id_ne hne]
      exact h.widgets other hother guard' hg

/-! ### Broadcasts -/

theorem mem_recipients : id ∈ s.recipients options ↔ ∃ socket ∈ s.sockets, options.addresses socket ∧
    socket.id = id := by
  simp [recipients, and_assoc]

theorem addresses_excluding {excluded : List String} {socket : Socket} :
    (options.excluding excluded).addresses socket = true ↔
      options.addresses socket = true ∧ ∀ room ∈ excluded, room ∉ socket.rooms := by
  simp only [Options.addresses, Options.excluding, List.any_append, Bool.and_eq_true, Bool.not_eq_true',
    Bool.or_eq_false_iff, List.any_eq_false, decide_eq_true_eq]
  tauto

/-- What a guard may change of a socket left out. -/
def shape (socket : Socket) : Socket :=
  { socket with guard := socket.guard.map fun guard => { guard with widgets := [] } }

/-- What sending packets leaves as it is. -/
structure Same (s s' : State) : Prop where
  now : s'.now = s.now
  adapterGuard : s'.adapterGuard = s.adapterGuard
  sockets : s'.sockets.map shape = s.sockets.map shape

theorem Same.refl : Same s s := ⟨rfl, rfl, rfl⟩

theorem Same.trans (h : Same s s') (h' : Same s' t) : Same s t :=
  ⟨h'.now.trans h.now, h'.adapterGuard.trans h.adapterGuard, h'.sockets.trans h.sockets⟩

theorem Same.guarded (h : Same s s') : s'.guarded id = s.guarded id := by
  have hshape : ∀ s : State, s.guarded id = (s.sockets.map shape).any fun socket => socket.id = id &&
      socket.guard.isSome := by
    intro s
    have hsome : ∀ socket, (shape socket).guard.isSome = socket.guard.isSome := by simp [shape]
    simp only [State.guarded, List.any_map, Function.comp_def, hsome]
    rfl
  rw [hshape, hshape, h.sockets]

theorem Same.recipients (h : Same s s') : s'.recipients options = s.recipients options := by
  have hshape : ∀ s : State,
      s.recipients options = ((s.sockets.map shape).filter options.addresses).map (·.id) := by
    intro s
    rw [List.filter_map, List.map_map]
    rfl
  rw [hshape, hshape, h.sockets]

/-- The guard of a display has kept its scope. -/
theorem Same.scope (h : Same s s') {display : Socket} (hdisplay : display ∈ s'.sockets) {guard : Guard}
    (hguard : display.guard = some guard) : ∃ old ∈ s.sockets, old.id = display.id ∧
      ∃ guard', old.guard = some guard' ∧ guard'.scope = guard.scope := by
  have hmem : shape display ∈ s.sockets.map shape := h.sockets ▸ List.mem_map_of_mem hdisplay
  obtain ⟨old, hold, heq⟩ := List.mem_map.1 hmem
  have hg := congrArg Socket.guard heq
  simp only [shape, hguard, Option.map_some, Option.map_eq_some_iff] at hg
  obtain ⟨guard', hguard', hscope⟩ := hg
  have hid : (shape old).id = (shape display).id := congrArg Socket.id heq
  exact ⟨old, hold, hid, guard', hguard', (Guard.mk.inj hscope).1⟩

theorem packet_same (h : s.Inv) (hs : s.packet id given time = some s') : Same s s' := by
  unfold State.packet at hs
  split at hs
  · exact Option.some.inj hs ▸ Same.refl
  next socket hsocket =>
  obtain ⟨hmem, hid, -⟩ := mem_of_socket hsocket
  split at hs
  · exact Option.some.inj hs ▸ ⟨rfl, rfl, rfl⟩
  next guard hguard =>
  split at hs
  · cases hs
  · exact Option.some.inj hs ▸ ⟨rfl, rfl, rfl⟩
  · exact Option.some.inj hs ▸ Same.refl
  · obtain rfl := Option.some.inj hs
    refine ⟨rfl, rfl, ?_⟩
    simp only [push, update, List.map_map]
    refine List.map_congr_left fun other hother => ?_
    by_cases hother' : other.id = id
    · obtain rfl := h.unique hother hmem (hother'.trans hid.symm)
      simp [shape, hguard, hother']
    · simp [hother']

/-- What concerns one socket. -/
def heard (id : String) (log : List Entry) : List Entry := log.filter fun entry => entry.id = id

theorem heard_append {log log' : List Entry} : heard id (log ++ log') = heard id log ++ heard id log' :=
  List.filter_append ..

theorem heard_of_ne {entry : Entry} (h : entry.id ≠ id) : heard id [entry] = [] := by simp [heard, h]

/-- A packet for a display is not heard by the other sockets. -/
theorem packet_heard {other : String} (hother : s.guarded other = false) (hid : s.guarded id = true)
    (hs : s.packet id given time = some s') : heard other s'.log = heard other s.log := by
  have hne : id ≠ other := fun heq => by simp [← heq, hid] at hother
  unfold State.packet at hs
  split at hs
  · exact Option.some.inj hs ▸ rfl
  next socket hsocket =>
  split at hs
  · next hguard =>
    obtain rfl := Option.some.inj hs
    rw [push, heard_append, heard_of_ne (show (Entry.sent id given time).id ≠ other from hne),
      List.append_nil]
  split at hs
  · cases hs
  · obtain rfl := Option.some.inj hs
    rw [push, heard_append, heard_of_ne (show (Entry.closed id time).id ≠ other from hne), List.append_nil]
  · exact Option.some.inj hs ▸ rfl
  · next packet widgets _ =>
    obtain rfl := Option.some.inj hs
    rw [push, heard_append, heard_of_ne (show (Entry.sent id packet time).id ≠ other from hne),
      List.append_nil]
    rfl

theorem packet_ne_none (h : ∀ display ∈ s.sockets, display.id = id → ∀ guard ∈ display.guard,
    time < guard.scope.expires → Readable guard.scope.pages given) : s.packet id given time ≠ none := by
  unfold State.packet
  split
  · simp
  next socket hsocket =>
  obtain ⟨hmem, hid, -⟩ := mem_of_socket hsocket
  split
  · simp
  next guard hguard =>
  split
  · next hthrows => exact absurd hthrows (Guard.filter_ne_throws (h socket hmem hid guard hguard))
  all_goals simp

/-- What the visits to the displays leave. -/
theorem applyScoped_spec (given : Packet) (visits : List Visit) (h : s.Inv) :
    (applyScoped given visits s).1.Inv ∧ Same s (applyScoped given visits s).1 ∧
    ∀ other, s.guarded other = false →
    heard other (applyScoped given visits s).1.log = heard other s.log := by
  induction visits generalizing s with
  | nil => exact ⟨h, .refl, fun _ _ => rfl⟩
  | cons visit visits ih =>
    unfold applyScoped
    split
    · next hguarded =>
      cases hs : s.packet visit.1 given visit.2 with
      | none => exact ⟨h, .refl, fun _ _ => rfl⟩
      | some s' =>
        have hsame := packet_same h hs
        obtain ⟨hinv, hsame', hheard⟩ := ih (h.packet hs)
        refine ⟨hinv, hsame.trans hsame', fun other hother => ?_⟩
        rw [hheard other (hsame.guarded.trans hother), packet_heard hother hguarded hs]
    · exact ih h

theorem applyScoped_completes (h : s.Inv)
    (hread : ∀ visit ∈ visits, ∀ display ∈ s.sockets, display.id = visit.1 →
    ∀ guard ∈ display.guard, visit.2 < guard.scope.expires → Readable guard.scope.pages given) :
    (applyScoped given visits s).2 = true := by
  induction visits generalizing s with
  | nil => rfl
  | cons visit visits ih =>
    unfold applyScoped
    split
    · obtain ⟨s', hs⟩ := Option.ne_none_iff_exists'.1 (packet_ne_none (hread visit (List.mem_cons_self ..)))
      rw [hs]
      have hsame := packet_same h hs
      refine ih (h.packet hs) fun visit' hvisit' display hdisplay hid guard hguard hlive => ?_
      obtain ⟨old, hold, hid', guard', hguard', hscope⟩ := hsame.scope hdisplay hguard
      rw [← hscope] at hlive ⊢
      exact hread visit' (List.mem_cons_of_mem _ hvisit') old hold (hid'.trans hid) guard' hguard' hlive
    · exact ih h fun visit' hvisit' => hread visit' (List.mem_cons_of_mem _ hvisit')

theorem Inv.push_all (h : s.Inv) {entries : List Entry}
    (hentries : ∀ entry ∈ entries, ∃ socket ∈ s.sockets, socket.id = entry.id ∧ socket.guard = none) :
    Inv { s with log := s.log ++ entries } := by
  induction entries generalizing s with
  | nil => simpa using h
  | cons entry entries ih =>
    obtain ⟨socket, hsocket, hid, hguard⟩ := hentries entry (List.mem_cons_self ..)
    have hpush := ih (h.push_unguarded hsocket hid hguard) fun e he => hentries e (List.mem_cons_of_mem _ he)
    have heq : s.log ++ entry :: entries = (s.push entry).log ++ entries := by simp [State.push]
    rw [heq]
    exact hpush

theorem Inv.not_guarded_of_unpatched (h : s.Inv) (hpatched : ¬ s.adapterGuard = true) :
    s.guarded id = false := by
  rw [← Bool.not_eq_true]
  intro hguarded
  obtain ⟨socket, hsocket, -, hsome⟩ := guarded_iff.1 hguarded
  exact hpatched (h.patched socket hsocket hsome)

theorem Inv.originalBroadcast (h : s.Inv) (hoptions : ∀ id ∈ s.recipients options, s.guarded id = false) :
    (s.originalBroadcast given options visits).Inv := by
  refine h.push_all fun entry hentry => ?_
  obtain ⟨visit, hvisit, rfl⟩ := List.mem_map.1 hentry
  have hmem := (List.mem_filter.1 hvisit).2
  simp only [decide_eq_true_eq] at hmem
  obtain ⟨socket, hsocket, -, hid⟩ := mem_recipients.1 hmem
  exact ⟨socket, hsocket, hid, guard_eq_none (hoptions visit.1 hmem) hsocket hid⟩

theorem heard_originalBroadcast : heard id (s.originalBroadcast given options visits).log = heard id s.log ++
    (visits.filter fun visit => visit.1 = id ∧ id ∈ s.recipients options).map fun visit =>
    .sent visit.1 given visit.2 := by
  rw [State.originalBroadcast, heard_append]
  congr 1
  rw [heard, List.filter_map, List.filter_filter]
  congr 1
  refine List.filter_congr fun visit _ => ?_
  by_cases hid : visit.1 = id
  · simp [Entry.id, hid]
  · simp [Entry.id, hid]

theorem visited (h : s.visitable options visits) {socket : Socket} (hsocket : socket ∈ s.sockets)
    (haddresses : options.addresses socket) : socket.id ∈ visits.map Prod.fst := by
  simp only [visitable, Bool.and_eq_true] at h
  exact (List.isPerm_iff.1 h.1.1).mem_iff.2 (mem_recipients.2 ⟨socket, hsocket, haddresses, rfl⟩)

theorem mem_of_visit (h : s.visitable options visits) {visit : Visit} (hvisit : visit ∈ visits) :
    visit.1 ∈ s.recipients options := by
  simp only [visitable, Bool.and_eq_true] at h
  exact (List.isPerm_iff.1 h.1.1).mem_iff.1 (List.mem_map_of_mem hvisit)

section excluding
variable {excluded : List String}

/-- Displays that are in the rooms of their own are excluded with these. -/
theorem not_guarded (h : s.Inv)
    (hown : ∀ display ∈ s.sockets, options.addresses display → display.guard.isSome →
      display.id ∈ display.rooms)
    (hexcluded : ∀ display ∈ s.sockets, options.addresses display → display.guard.isSome →
      display.id ∈ excluded)
    (hid : id ∈ s.recipients (options.excluding excluded)) : s.guarded id = false := by
  rw [← Bool.not_eq_true]
  intro hguarded
  obtain ⟨socket, hsocket, haddresses, hsid⟩ := mem_recipients.1 hid
  obtain ⟨display, hdisplay, hdid, hsome⟩ := guarded_iff.1 hguarded
  obtain rfl := h.unique hsocket hdisplay (hsid.trans hdid.symm)
  obtain ⟨haddresses, hrooms⟩ := addresses_excluding.1 haddresses
  exact hrooms socket.id (hexcluded socket hsocket haddresses hsome) (hown socket hsocket haddresses hsome)

theorem mem_excluding (hid : s.guarded id = false)
    (hapart : ∀ socket ∈ s.sockets, options.addresses socket → socket.guard = none →
      ∀ room ∈ excluded, room ∉ socket.rooms) :
    id ∈ s.recipients (options.excluding excluded) ↔ id ∈ s.recipients options := by
  rw [mem_recipients, mem_recipients]
  constructor
  · rintro ⟨socket, hsocket, haddresses, hsid⟩
    exact ⟨socket, hsocket, (addresses_excluding.1 haddresses).1, hsid⟩
  · rintro ⟨socket, hsocket, haddresses, hsid⟩
    have hguard := guard_eq_none hid hsocket hsid
    exact ⟨socket, hsocket, addresses_excluding.2 ⟨haddresses, hapart socket hsocket haddresses hguard⟩, hsid⟩

end excluding

theorem broadcast_patched (h : s.adapterGuard = true) : s.broadcast given options visits =
    if (applyScoped given visits s).2 then (applyScoped given visits s).1.originalBroadcast given
      (options.excluding ((visits.map Prod.fst).filter s.guarded)) visits
    else (applyScoped given visits s).1 := by
  rw [State.broadcast, if_pos h]

theorem broadcast_unpatched (h : ¬ s.adapterGuard = true) :
    s.broadcast given options visits = s.originalBroadcast given options visits := by
  rw [State.broadcast, if_neg h]

theorem Inv.broadcast (h : s.Inv) (hv : s.visitable options visits)
    (hgood : Harmless s (.broadcasts given options visits)) :
    (s.broadcast given options visits).Inv := by
  by_cases hpatched : s.adapterGuard = true
  · rw [broadcast_patched hpatched]
    obtain ⟨hinv, hsame, -⟩ := applyScoped_spec given visits h
    split
    · refine hinv.originalBroadcast fun other hother => ?_
      rw [hsame.guarded]
      rw [hsame.recipients] at hother
      refine not_guarded h hgood.1 (fun display hdisplay haddresses hsome => ?_) hother
      exact List.mem_filter.2 ⟨visited hv hdisplay haddresses, guarded_iff.2 ⟨display, hdisplay, rfl, hsome⟩⟩
    · exact hinv
  · rw [broadcast_unpatched hpatched]
    exact h.originalBroadcast fun other _ => h.not_guarded_of_unpatched hpatched

theorem Inv.broadcastWithAck (h : s.Inv) (hgood : Harmless s (.broadcastsWithAck given options visits)) :
    (s.broadcastWithAck given options visits).Inv := by
  unfold State.broadcastWithAck
  split
  · refine h.originalBroadcast fun other hother => ?_
    refine not_guarded h hgood.1 (fun display hdisplay haddresses hsome => ?_) hother
    simp only [Options.addresses, Bool.and_eq_true] at haddresses
    exact List.mem_map_of_mem (List.mem_filter.2 ⟨hdisplay, by simp [haddresses.1.1, hsome]⟩)
  · next hpatched =>
    exact h.originalBroadcast fun other _ => h.not_guarded_of_unpatched hpatched

/-- A socket without a guard hears a broadcast as if there were no guards. -/
theorem heard_broadcast (h : s.Inv) (hv : s.visitable options visits)
    (hgood : Harmless s (.broadcasts given options visits)) (hid : s.guarded id = false) :
    heard id (s.broadcast given options visits).log = heard id s.log ++
      (visits.filter fun visit => visit.1 = id ∧ id ∈ s.recipients options).map fun visit =>
      .sent visit.1 given visit.2 := by
  by_cases hpatched : s.adapterGuard = true
  · rw [broadcast_patched hpatched]
    obtain ⟨-, hsame, hheard⟩ := applyScoped_spec given visits h
    have hdisplays : ∀ room ∈ (visits.map Prod.fst).filter s.guarded, ∃ display ∈ s.sockets,
        options.addresses display ∧ display.id = room ∧ display.guard.isSome := by
      intro room hroom
      obtain ⟨hfst, hguarded⟩ := List.mem_filter.1 hroom
      obtain ⟨visit, hvisit, rfl⟩ := List.mem_map.1 hfst
      obtain ⟨display, hdisplay, haddresses, hdid⟩ := mem_recipients.1 (mem_of_visit hv hvisit)
      obtain ⟨display', hdisplay', hdid', hsome⟩ := guarded_iff.1 hguarded
      obtain rfl := h.unique hdisplay hdisplay' (hdid.trans hdid'.symm)
      exact ⟨display, hdisplay, haddresses, hdid, hsome⟩
    have happart : ∀ socket ∈ s.sockets, options.addresses socket → socket.guard = none →
        ∀ room ∈ (visits.map Prod.fst).filter s.guarded, room ∉ socket.rooms := by
      intro socket hsocket haddresses hguard room hroom
      obtain ⟨display, hdisplay, haddresses', rfl, hsome⟩ := hdisplays room hroom
      obtain ⟨guard, hg⟩ := Option.isSome_iff_exists.1 hsome
      exact (hgood.2 socket hsocket haddresses hguard display hdisplay haddresses' guard hg).1
    split
    · rw [heard_originalBroadcast, hheard id hid, hsame.recipients]
      simp only [mem_excluding hid happart]
    · next hthrown =>
      -- no socket without a guard was addressed, for else the displays could read the packet
      have hnot : id ∉ s.recipients options := by
        intro hmem
        obtain ⟨socket, hsocket, haddresses, hsid⟩ := mem_recipients.1 hmem
        refine hthrown (applyScoped_completes h fun visit hvisit display hdisplay hdid guard hguard => ?_)
        obtain ⟨display', hdisplay', haddresses', hdid'⟩ := mem_recipients.1 (mem_of_visit hv hvisit)
        obtain rfl := h.unique hdisplay hdisplay' (hdid.trans hdid'.symm)
        exact (hgood.2 socket hsocket haddresses (guard_eq_none hid hsocket hsid) display hdisplay
          haddresses' guard hguard).2
          visit.2 (by rw [hdid]; exact hvisit)
      simp [hheard id hid, hnot]
  · rw [broadcast_unpatched hpatched]
    exact heard_originalBroadcast

theorem heard_broadcastWithAck (hgood : Harmless s (.broadcastsWithAck given options visits))
    (hid : s.guarded id = false) :
    heard id (s.broadcastWithAck given options visits).log = heard id s.log ++
      (visits.filter fun visit => visit.1 = id ∧ id ∈ s.recipients options).map fun visit =>
      .sent visit.1 given visit.2 := by
  unfold State.broadcastWithAck
  split
  · have happart : ∀ socket ∈ s.sockets, options.addresses socket → socket.guard = none →
        ∀ room ∈ (s.sockets.filter fun socket => socket.connected && socket.guard.isSome).map (·.id),
            room ∉ socket.rooms := by
      intro socket hsocket haddresses hguard room hroom
      obtain ⟨display, hdisplay, rfl⟩ := List.mem_map.1 hroom
      obtain ⟨hdisplay, hsome⟩ := List.mem_filter.1 hdisplay
      simp only [Bool.and_eq_true] at hsome
      exact hgood.2 socket hsocket haddresses hguard display hdisplay hsome.1 hsome.2
    rw [heard_originalBroadcast]
    simp only [mem_excluding hid happart]
  · exact heard_originalBroadcast

/-! ### Steps -/

theorem Inv.setNow (h : s.Inv) (now : Int) : Inv { s with now } :=
  ⟨h.nodup, h.patched, h.known, h.widgets, h.confined⟩

theorem Inv.connects (h : s.Inv) {socket : Socket} {adapterGuard : Bool}
    (hid : ∀ other ∈ s.sockets, other.id ≠ socket.id)
    (hguard : ∀ guard ∈ socket.guard, guard.widgets = [])
    (hpatched : s.adapterGuard = true → adapterGuard = true)
    (hsome : socket.guard.isSome → adapterGuard = true) :
    Inv { s with adapterGuard, sockets := s.sockets ++ [socket] } := by
  have hunheard : ∀ entry ∈ s.log, entry.id ≠ socket.id := by
    intro entry hentry heq
    obtain ⟨other, hother, hother'⟩ := h.known entry hentry
    exact hid other hother (hother'.trans heq)
  have hmem : ∀ {other}, other ∈ s.sockets ++ [socket] → other ∈ s.sockets ∨ other = socket := by
    intro other hother
    simpa using hother
  refine ⟨?_, ?_, ?_, ?_, ?_⟩
  · rw [List.map_append, List.nodup_append]
    refine ⟨h.nodup, by simp, ?_⟩
    rintro id hid' id' hid'' rfl
    obtain ⟨other, hother, rfl⟩ := List.mem_map.1 hid'
    exact hid other hother (by simpa using hid'')
  · intro other hother hother'
    rcases hmem hother with hother | rfl
    · exact hpatched (h.patched other hother hother')
    · exact hsome hother'
  · intro entry hentry
    obtain ⟨other, hother, hother'⟩ := h.known entry hentry
    exact ⟨other, List.mem_append_left _ hother, hother'⟩
  · intro other hother guard hg
    rcases hmem hother with hother | rfl
    · exact h.widgets other hother guard hg
    · rw [hguard guard hg, lastWidgets_eq_nil hunheard]
  · intro before entry after heq other hother hother'
    rcases hmem hother with hother | rfl
    · exact h.confined before entry after heq other hother hother'
    · exact absurd hother'.symm (hunheard entry (by rw [show s.log = _ from heq]; simp))

theorem Inv.receive (h : s.Inv) {event : String} {args : List Value} :
    (s.receive id event args time).Inv := by
  unfold State.receive
  split
  · exact h
  next socket hsocket =>
  obtain ⟨hmem, hid, -⟩ := mem_of_socket hsocket
  split
  · next hguard => exact h.push_unguarded hmem hid hguard
  next guard hguard =>
  split
  · exact h.push_closed hmem hid
  next hlive =>
  split
  · next hadmits =>
    refine h.push ⟨socket, hmem, hid⟩ fun other hother hother' guard' hg => ?_
    obtain rfl := h.unique hother hmem (hother'.trans hid.symm)
    obtain rfl := Option.some.inj (hguard.symm.trans hg)
    obtain ⟨hevent, hwidget⟩ := Bool.and_eq_true_iff.1 hadmits
    refine ⟨rfl, Rat.not_le.1 hlive, List.contains_iff_mem.1 hevent, ?_⟩
    split at hwidget
    · next widget rest =>
      rw [h.widgets other hmem guard hguard, hid] at hwidget
      exact ⟨widget, rest, rfl, List.contains_iff_mem.1 hwidget⟩
    · cases hwidget
  · exact h

theorem Inv.step (h : s.Inv) {label : Label} (hgood : Harmless s label) (hs : step true s label = some s') :
    s'.Inv := by
  cases label with
  | connects id scope time =>
    simp only [DisplayScope.step] at hs
    split at hs
    · cases hs
    next hfresh =>
    obtain ⟨-, hfresh⟩ := not_or.1 hfresh
    split at hs
    · exact Option.some.inj hs ▸ h.setNow time
    · obtain rfl := Option.some.inj hs
      refine (h.setNow time).connects (fun other hother heq => hfresh ?_) ?_ (fun hpatched => ?_)
        (fun hsome => ?_)
      · exact List.any_eq_true.2 ⟨other, hother, by simpa using heq⟩
      · simp
      · exact Bool.or_eq_true_iff.2 (.inl hpatched)
      · have hscope : scope.isSome = true := by simpa using hsome
        simp [hscope]
  | disconnects id =>
    obtain rfl := Option.some.inj hs
    exact h.update (fun _ => rfl) fun _ => rfl
  | joins id room =>
    obtain rfl := Option.some.inj hs
    exact h.update (fun _ => rfl) fun _ => rfl
  | leaves id room =>
    obtain rfl := Option.some.inj hs
    exact h.update (fun _ => rfl) fun _ => rfl
  | emits id packet time =>
    simp only [DisplayScope.step] at hs
    split at hs
    · cases hs
    · obtain rfl := Option.some.inj hs
      cases hp : State.packet { s with now := time } id packet time with
      | none => exact h.setNow time
      | some s' => exact (h.setNow time).packet hp
  | broadcasts packet options visits =>
    simp only [DisplayScope.step] at hs
    split at hs
    · next hv => exact Option.some.inj hs ▸ (h.broadcast hv hgood).setNow _
    · cases hs
  | broadcastsWithAck packet options visits =>
    simp only [DisplayScope.step] at hs
    split at hs
    · exact Option.some.inj hs ▸ (h.broadcastWithAck hgood).setNow _
    · cases hs
  | receives id event args time =>
    simp only [DisplayScope.step] at hs
    split at hs
    · cases hs
    · exact Option.some.inj hs ▸ (h.setNow time).receive
  | expires id time =>
    simp only [DisplayScope.step] at hs
    split at hs
    · cases hs
    · obtain rfl := Option.some.inj hs
      split
      · next hsome =>
        cases hsocket : State.socket { s with now := time } id with
        | none => simp [hsocket] at hsome
        | some socket =>
          obtain ⟨hmem, hid, -⟩ := mem_of_socket hsocket
          exact (h.setNow time).push_closed hmem hid
      · exact h.setNow time

/-! ### The namespace without guards -/

/-- The socket without its guard. -/
def bare (socket : Socket) : Socket := { socket with guard := none }

/-- `t` is `s` without its guards, and the sockets that have none have heard the same. -/
structure Twin (s t : State) : Prop where
  now : t.now = s.now
  unpatched : ¬ t.adapterGuard = true
  sockets : t.sockets = s.sockets.map bare
  heard : ∀ id, s.guarded id = false → heard id t.log = heard id s.log

theorem Twin.setNow (h : Twin s t) (now : Int) : Twin { s with now } { t with now } :=
  ⟨rfl, h.unpatched, h.sockets, h.heard⟩

theorem Twin.update (h : Twin s t) {f : Socket → Socket} (hf : ∀ socket, f (bare socket) = bare (f socket))
    (hid : ∀ socket, (f socket).id = socket.id) (hguard : ∀ socket, (f socket).guard = socket.guard) :
    Twin (s.update id f) (t.update id f) where
  now := h.now
  unpatched := h.unpatched
  sockets := by
    simp only [State.update, h.sockets, List.map_map]
    refine List.map_congr_left fun socket _ => ?_
    have hbare : (bare socket).id = socket.id := rfl
    simp only [Function.comp_apply, hbare]
    split
    · exact hf socket
    · rfl
  heard other hother := by
    refine h.heard other ?_
    rw [← hother]
    simp only [State.guarded, State.update, List.any_map]
    congr 1
    funext socket
    simp only [Function.comp_apply]
    split
    · rw [hid, hguard]
    · rfl

theorem Twin.recipients (h : Twin s t) : t.recipients options = s.recipients options := by
  rw [State.recipients, State.recipients, h.sockets, List.filter_map, List.map_map]
  rfl

theorem Twin.socket (h : Twin s t) : t.socket id = (s.socket id).map bare := by
  rw [State.socket, State.socket, h.sockets, List.find?_map]
  rfl

theorem Twin.push (h : Twin s t) {entry : Entry} : Twin (s.push entry) (t.push entry) where
  now := h.now
  unpatched := h.unpatched
  sockets := h.sockets
  heard other hother := by
    rw [State.push, State.push, heard_append, heard_append, h.heard other hother]

theorem Same.bare (h : Same s s') : s'.sockets.map bare = s.sockets.map bare := by
  have hshape : ∀ s : State, s.sockets.map State.bare = (s.sockets.map shape).map State.bare := fun s => by
    rw [List.map_map]
    rfl
  rw [hshape, hshape s, h.sockets]

/-- What happens to sockets with a guard, the others do not hear. -/
theorem Twin.of_same (h : Twin s t) (hsame : Same s s')
    (hheard : ∀ other, s.guarded other = false → State.heard other s'.log = State.heard other s.log) :
    Twin s' t where
  now := h.now.trans hsame.now.symm
  unpatched := h.unpatched
  sockets := h.sockets.trans hsame.bare.symm
  heard other hother := by
    rw [hsame.guarded] at hother
    rw [h.heard other hother, hheard other hother]

theorem Twin.push_right (h : Twin s t) {entry : Entry} (hguarded : s.guarded entry.id = true) :
    Twin s (t.push entry) where
  now := h.now
  unpatched := h.unpatched
  sockets := h.sockets
  heard other hother := by
    have hne : entry.id ≠ other := fun heq => by simp [← heq, hguarded] at hother
    rw [State.push, heard_append, heard_of_ne hne, List.append_nil, h.heard other hother]

theorem Twin.push_left (h : Twin s t) {entry : Entry} (hguarded : s.guarded entry.id = true) :
    Twin (s.push entry) t where
  now := h.now
  unpatched := h.unpatched
  sockets := h.sockets
  heard other hother := by
    have hne : entry.id ≠ other := fun heq => by
      rw [← heq] at hother
      exact absurd (hguarded.symm.trans hother) (by simp)
    rw [State.push, heard_append, heard_of_ne hne, List.append_nil]
    exact h.heard other hother

theorem guarded_of_guard {socket : Socket} {guard : Guard} (hsocket : s.socket id = some socket)
    (hguard : socket.guard = some guard) : s.guarded id = true := by
  obtain ⟨hmem, hid, -⟩ := mem_of_socket hsocket
  exact guarded_iff.2 ⟨socket, hmem, hid, by simp [hguard]⟩

/-- A packet is sent to the twin as it is. -/
theorem Twin.packet (h : Twin s t) (hi : s.Inv) :
    ∃ t', t.packet id given time = some t' ∧ Twin ((s.packet id given time).getD s) t' := by
  cases hsocket : s.socket id with
  | none =>
    refine ⟨t, ?_, ?_⟩
    · simp [State.packet, h.socket, hsocket]
    · simpa [State.packet, hsocket] using h
  | some socket =>
    refine ⟨t.push (.sent id given time), ?_, ?_⟩
    · simp [State.packet, h.socket, hsocket, bare]
    · cases hguard : socket.guard with
      | none => simpa [State.packet, hsocket, hguard] using h.push
      | some guard =>
        have hguarded := guarded_of_guard hsocket hguard
        cases hs : s.packet id given time with
        | none => exact h.push_right hguarded
        | some s' =>
          have hsame := packet_same hi hs
          refine (h.of_same hsame fun other hother => packet_heard hother hguarded hs).push_right ?_
          exact hsame.guarded.trans hguarded

theorem Twin.receive (h : Twin s t) {event : String} {args : List Value} :
    Twin (s.receive id event args time) (t.receive id event args time) := by
  cases hsocket : s.socket id with
  | none => simpa [State.receive, h.socket, hsocket] using h
  | some socket =>
    have htwin : t.receive id event args time = t.push (.handled id event args time) := by
      simp [State.receive, h.socket, hsocket, bare]
    rw [htwin]
    cases hguard : socket.guard with
    | none => simpa [State.receive, hsocket, hguard] using h.push
    | some guard =>
      have hguarded := guarded_of_guard hsocket hguard
      simp only [State.receive, hsocket, hguard]
      split
      · have hleft : Twin (s.push (.closed id time)) t := h.push_left hguarded
        exact hleft.push_right hguarded
      split
      · exact h.push
      · exact h.push_right hguarded

/-- What a broadcast leaves of the sockets. -/
theorem broadcast_same (h : s.Inv) : Same s (s.broadcast given options visits) := by
  by_cases hpatched : s.adapterGuard = true
  · rw [broadcast_patched hpatched]
    have hsame := (applyScoped_spec given visits h).2.1
    split
    · exact ⟨hsame.now, hsame.adapterGuard, hsame.sockets⟩
    · exact hsame
  · rw [broadcast_unpatched hpatched]
    exact ⟨rfl, rfl, rfl⟩

theorem broadcastWithAck_same : Same s (s.broadcastWithAck given options visits) := by
  unfold State.broadcastWithAck
  split <;> exact ⟨rfl, rfl, rfl⟩

theorem Twin.broadcast (h : Twin s t) (hsame : Same s s')
    (hheard : ∀ other, s.guarded other = false → State.heard other s'.log = State.heard other s.log ++
      (visits.filter fun visit => visit.1 = other ∧ other ∈ s.recipients options).map fun visit =>
      .sent visit.1 given visit.2) :
    Twin s' (t.originalBroadcast given options visits) where
  now := h.now.trans hsame.now.symm
  unpatched := h.unpatched
  sockets := h.sockets.trans hsame.bare.symm
  heard other hother := by
    rw [hsame.guarded] at hother
    rw [heard_originalBroadcast, h.recipients, h.heard other hother, hheard other hother]

theorem Twin.connects (h : Twin s t) {socket : Socket} {adapterGuard : Bool} :
    Twin { s with adapterGuard, sockets := s.sockets ++ [socket] }
    { t with sockets := t.sockets ++ [bare socket] } where
  now := h.now
  unpatched := h.unpatched
  sockets := by simp [h.sockets]
  heard other hother := by
    refine h.heard other ?_
    simp only [State.guarded, List.any_append, Bool.or_eq_false_iff] at hother
    exact hother.1

/-- A harmless step is one of the namespace without guards too. -/
theorem Twin.step (h : Twin s t) (hi : s.Inv) {label : Label} (hgood : Harmless s label)
    (hs : step true s label = some s') :
    ∃ t', step false t label = some t' ∧ Twin s' t' := by
  have hvisitable : ∀ {options visits}, t.visitable options visits = s.visitable options visits := by
    intro options visits
    simp [visitable, h.recipients, h.now]
  have hunpatched : t.adapterGuard = false := by simpa using h.unpatched
  cases label with
  | connects id scope time =>
    have hfresh : (t.sockets.any fun socket => socket.id = id) = s.sockets.any fun socket =>
        socket.id = id := by
      rw [h.sockets, List.any_map]
      rfl
    simp only [DisplayScope.step, h.now, hfresh] at hs ⊢
    split at hs
    · cases hs
    next hnow =>
    rw [if_neg hnow]
    split at hs
    · next hinvalid =>
      obtain rfl := Option.some.inj hs
      exact ⟨_, if_pos hinvalid, h.setNow time⟩
    · next hvalid =>
      obtain rfl := Option.some.inj hs
      refine ⟨_, if_neg hvalid, ?_⟩
      have hconnects : Twin { s with
            now := time
            adapterGuard := s.adapterGuard || scope.isSome
            sockets := s.sockets ++ [⟨id, true, [id], scope.map fun scope => ⟨scope, []⟩⟩] }
          { t with
            now := time
            sockets := t.sockets ++ [bare ⟨id, true, [id], scope.map fun scope => ⟨scope, []⟩⟩] } :=
        (h.setNow time).connects
      simpa [bare, hunpatched] using hconnects
  | disconnects id =>
    obtain rfl := Option.some.inj hs
    exact ⟨_, rfl, h.update (fun _ => rfl) (fun _ => rfl) fun _ => rfl⟩
  | joins id room =>
    obtain rfl := Option.some.inj hs
    exact ⟨_, rfl, h.update (fun _ => rfl) (fun _ => rfl) fun _ => rfl⟩
  | leaves id room =>
    obtain rfl := Option.some.inj hs
    exact ⟨_, rfl, h.update (fun _ => rfl) (fun _ => rfl) fun _ => rfl⟩
  | emits id packet time =>
    simp only [DisplayScope.step, h.now] at hs ⊢
    split at hs
    · cases hs
    next hnow =>
    obtain rfl := Option.some.inj hs
    obtain ⟨t', ht', htwin⟩ := (h.setNow time).packet (hi.setNow time)
    rw [if_neg hnow, ht']
    exact ⟨t', rfl, htwin⟩
  | broadcasts packet options visits =>
    simp only [DisplayScope.step, hvisitable, h.now] at hs ⊢
    split at hs
    · next hv =>
      obtain rfl := Option.some.inj hs
      rw [if_pos hv, broadcast_unpatched h.unpatched]
      exact ⟨_, rfl, (h.broadcast (broadcast_same hi) fun other => heard_broadcast hi hv hgood).setNow _⟩
    · cases hs
  | broadcastsWithAck packet options visits =>
    simp only [DisplayScope.step, hvisitable, h.now] at hs ⊢
    split at hs
    · next hv =>
      obtain rfl := Option.some.inj hs
      have htwin : t.broadcastWithAck packet options visits = t.originalBroadcast packet options visits :=
        if_neg h.unpatched
      rw [if_pos hv, htwin]
      exact ⟨_, rfl, (h.broadcast broadcastWithAck_same fun other => heard_broadcastWithAck hgood).setNow _⟩
    · cases hs
  | receives id event args time =>
    simp only [DisplayScope.step, h.now] at hs ⊢
    split at hs
    · cases hs
    next hnow =>
    obtain rfl := Option.some.inj hs
    rw [if_neg hnow]
    exact ⟨_, rfl, (h.setNow time).receive⟩
  | expires id time =>
    simp only [DisplayScope.step, h.now] at hs ⊢
    split at hs
    · cases hs
    next hnow =>
    obtain rfl := Option.some.inj hs
    rw [if_neg hnow]
    have hnone : ((State.socket { t with now := time } id).any fun socket => socket.guard.isSome) =
        false := by
      rw [(h.setNow time).socket]
      cases State.socket { s with now := time } id <;> rfl
    rw [hnone]
    refine ⟨_, rfl, ?_⟩
    cases hsocket : State.socket { s with now := time } id with
    | none => simpa [hsocket] using h.setNow time
    | some socket =>
      cases hguard : socket.guard with
      | none => simpa [hsocket, hguard] using h.setNow time
      | some guard =>
        have hpush : Twin (State.push { s with now := time } (.closed id time)) { t with now := time } :=
          (h.setNow time).push_left (guarded_of_guard hsocket hguard)
        simpa [hsocket, hguard] using hpush

theorem Twin.init (now : Int) : Twin (State.init now) (State.init now) where
  now := rfl
  unpatched := by simp [State.init]
  sockets := rfl
  heard _ _ := rfl

theorem Twin.run (h : Twin s t) (hi : s.Inv) {labels : List Label}
    (hgood : Machine.Along (DisplayScope.step true) Harmless s labels)
    (hs : Machine.run (DisplayScope.step true) s labels = some s') :
    ∃ t', Machine.run (DisplayScope.step false) t labels = some t' ∧ Twin s' t' := by
  induction labels generalizing s t with
  | nil =>
    obtain rfl := Option.some.inj hs
    exact ⟨t, rfl, h⟩
  | cons label labels ih =>
    obtain ⟨u, hu, hs⟩ := Machine.run_cons.1 hs
    obtain ⟨hlabel, hrest⟩ := hgood.cons hu
    obtain ⟨v, hv, htwin⟩ := h.step hi hlabel hu
    obtain ⟨t', ht', hfinal⟩ := ih htwin (hi.step hlabel hu) hrest hs
    exact ⟨t', Machine.run_cons.2 ⟨v, hv, ht'⟩, hfinal⟩

end State

open State

/-- In a run of harmless steps the displays are confined to their pages, and the other sockets hear
what they would hear if no socket were guarded. -/
theorem display_confined {now : Int} {labels : List Label} {s : State}
    (hrun : Machine.run (step true) (.init now) labels = some s)
    (hgood : Machine.Along (step true) Harmless (.init now) labels) :
    s.Confined ∧ ∃ t, Machine.run (step false) (.init now) labels = some t ∧
      ∀ socket ∈ s.sockets, socket.guard = none → heard socket.id s.log = heard socket.id t.log := by
  have hinv := hgood.inv (fun _ _ _ hlabel hstep hi => Inv.step hi hlabel hstep) hrun (Inv.init now)
  obtain ⟨t, ht, htwin⟩ := (Twin.init now).run (Inv.init now) hgood hrun
  refine ⟨hinv.confined, t, ht, fun socket hsocket hguard => (htwin.heard socket.id ?_).symm⟩
  rw [← Bool.not_eq_true]
  intro hguarded
  obtain ⟨other, hother, hid, hsome⟩ := guarded_iff.1 hguarded
  rw [hinv.unique hother hsocket hid, hguard] at hsome
  cases hsome

def tick : Packet := ⟨2, some (.arr [.str "msg-input:clock", .str "12:00"]), none⟩

/-- A display for the page `lobby` and an editor, and a packet for everybody. -/
def lobby : List Label :=
  [.connects "display" (some ⟨["lobby"], 60000⟩) 0, .connects "editor" none 0,
    .broadcasts tick ⟨[], []⟩ [("display", 1), ("editor", 1)]]

theorem display_confined_lobby : ∃ s, Machine.run (step true) (.init 0) lobby = some s ∧
    s.Confined ∧ ∃ t, Machine.run (step false) (.init 0) lobby = some t ∧
      ∀ socket ∈ s.sockets, socket.guard = none → heard socket.id s.log = heard socket.id t.log := by
  refine ⟨_, rfl, display_confined rfl ⟨trivial, trivial, ⟨?_, ?_⟩, trivial⟩⟩
  · intro display hdisplay _ _
    rcases List.mem_cons.1 hdisplay with rfl | hdisplay
    · exact List.mem_singleton_self _
    obtain rfl := List.mem_singleton.1 hdisplay
    exact List.mem_singleton_self _
  · intro socket hsocket _ hguard display hdisplay _ guard hg
    rcases List.mem_cons.1 hsocket with rfl | hsocket
    · cases hguard
    obtain rfl := List.mem_singleton.1 hsocket
    refine ⟨?_, fun time _ _ _ base config rest hdata => by simp [tick] at hdata⟩
    rcases List.mem_cons.1 hdisplay with rfl | hdisplay
    · show "display" ∉ ["editor"]
      decide
    obtain rfl := List.mem_singleton.1 hdisplay
    cases hg

/-- An editor that is in the room of a display does not hear what everybody hears. -/
theorem broadcast_missed : ¬ ∀ (now : Int) (labels : List Label) (s : State),
    Machine.run (step true) (.init now) labels = some s →
    s.Confined ∧ ∃ t, Machine.run (step false) (.init now) labels = some t ∧
      ∀ socket ∈ s.sockets, socket.guard = none → heard socket.id s.log = heard socket.id t.log := by
  intro h
  obtain ⟨-, t, ht, hheard⟩ :=
    h 0 [.connects "display" (some ⟨["lobby"], 60000⟩) 0, .connects "editor" none 0,
    .joins "editor" "display", .broadcasts tick ⟨[], []⟩ [("display", 1), ("editor", 1)]] _ rfl
  obtain rfl := Option.some.inj ht
  have hmissed := congrArg List.length
    (hheard ⟨"editor", true, ["display", "editor"], none⟩ (.tail _ (.head _)) rfl)
  exact absurd hmissed (by decide)

end DisplayScope
