import Mathlib.Algebra.Order.BigOperators.Group.List
import Mathlib.Algebra.Order.Ring.Nat
import BetterFrame.Lib.Table

/-!
# Mirroring dashboards as entities (routes-admin.ts, db/repository.ts)

`syncDashboardsFromNodered` over the tables `entities`, with its unique ids and names, and
`layout_cells`. `settles_iff` says for which entities and tabs a second run finds nothing to do.
-/

namespace DashboardSync

inductive EntityType where
  | camera
  | html
  | web
  | dashboard
  | ablesign
deriving DecidableEq

structure Entity where
  id : String
  name : String
  type : EntityType
  description : Option String
  camera_id : Option String
  html_content : Option String
  web_url : Option String
  dashboard_id : Option String
deriving DecidableEq

/-- A cell, with the columns that follow its entity. -/
structure Cell where
  entity_id : Option String
  content_type : EntityType
  camera_id : Option String
  web_url : Option String
  html_content : Option String
deriving DecidableEq

structure Db where
  entities : Table Entity.id Entity.name
  layout_cells : List Cell

/-- A dashboard as Node-RED lists it. -/
structure Tab where
  id : String
  name : String
  hidden : Bool
deriving DecidableEq

/-- `uuidv7` gives an id that is not among those given, `byName` is the order of a listing. -/
structure Platform where
  uuidv7 : List String → String
  byName : List Entity → List Entity

/-! ### The repository -/

/-- The entity is the dashboard of the tab with that id. -/
def Entity.mirrors (e : Entity) (dashboardId : String) : Bool :=
  e.type = .dashboard && e.dashboard_id = some dashboardId

namespace Db

variable (db : Db)

def getEntityById (id : String) : Option Entity := db.entities.rows.find? fun e => e.id = id

def getEntityByName (name : String) : Option Entity := db.entities.rows.find? fun e => e.name = name

def getEntityForDashboard (dashboardId : String) : Option Entity :=
  db.entities.rows.find? fun e => e.mirrors dashboardId

/-- The columns of a cell that follow its entity. -/
def Cell.follow (e : Entity) (cell : Cell) : Cell :=
  { cell with
    content_type := if e.type = .dashboard then .web else e.type
    camera_id := if e.type = .camera then e.camera_id else none
    web_url := if e.type = .web then e.web_url else if e.type = .dashboard then e.dashboard_id.bind fun id =>
      if id = "" then none else some ("/dash/" ++ id) else none
    html_content := if e.type = .html then e.html_content else none }

/-- `updateEntity` of the name. -/
def updateEntity (id name : String) : Except String Db :=
  match db.entities.modify id (fun e => { e with name }) fun _ => rfl with
  | none => .error Table.duplicateKey
  | some entities =>
    let db := { db with entities }
    match db.getEntityById id with
    | none => .ok db
    | some e =>
      .ok { db with
        layout_cells := db.layout_cells.map fun cell =>
          if cell.entity_id = some id then Cell.follow e cell else cell }

/-- `createEntity` of a dashboard. -/
def createEntity (P : Platform) (name dashboard_id : String) (description : Option String) :
    Except String Db :=
  match db.entities.insert ⟨P.uuidv7 (db.entities.rows.map (·.id)), name, .dashboard, description,
    none, none, none, some dashboard_id⟩ with
  | none => .error Table.duplicateKey
  | some entities => .ok { db with entities }

end Db

/-! ### One run -/

/-- The database and the counts, after some of the tabs. -/
structure Progress where
  db : Db
  added : Nat
  updated : Nat

/-- What a synchronisation returns. -/
structure Report where
  added : Nat
  updated : Nat
  total : Nat
  unavailable : Nat
  unavailableDashboardIds : List String
  /-- `notifyBundleChanged` was called. -/
  notified : Bool

def Tab.short (tab : Tab) : String := String.ofList (tab.id.toList.take 6)

/-- The name that tells the tab from an entity of the same name. -/
def Tab.apart (tab : Tab) (name : String) : String := name ++ " (dash " ++ tab.short ++ ")"

variable (P : Platform)

/-- One tab: its entity renamed or created. -/
def syncTab (p : Progress) (tab : Tab) : Except String Progress :=
  match p.db.getEntityForDashboard tab.id with
  | some existing =>
    if existing.name ≠ tab.name then
      let safeName := match p.db.getEntityByName tab.name with
        | some collision => if collision.id ≠ existing.id then tab.apart tab.name else tab.name
        | none => tab.name
      (p.db.updateEntity existing.id safeName).map fun db => ⟨db, p.added, p.updated + 1⟩
    else .ok p
  | none =>
    let name := if tab.name = "" then "Dashboard " ++ tab.short else tab.name
    let name := if (p.db.getEntityByName name).isSome then tab.apart name else name
    (p.db.createEntity P name tab.id (if tab.hidden then some "hidden tab" else none)).map fun db =>
      ⟨db, p.added + 1, p.updated⟩

/-- The tabs in order, then the entities whose tab is gone. -/
def syncDashboardsFromNodered (db : Db) (tabs : List Tab) : Except String (Report × Db) :=
  (tabs.foldlM (syncTab P) ⟨db, 0, 0⟩).map fun p =>
    let gone := (P.byName p.db.entities.rows).filter fun e =>
      e.type = .dashboard && (tabs.map (·.id)).all fun id => id ≠ e.dashboard_id.getD ""
    ({ added := p.added
       updated := p.updated
       total := tabs.length
       unavailable := gone.length
       unavailableDashboardIds := gone.map fun e => e.dashboard_id.getD ""
       notified := 0 < p.added || 0 < p.updated }, p.db)

/-- The run completes with exactly one entity for each tab and no other entity changed, and the next
run does nothing. -/
def Settles (db : Db) (tabs : List Tab) : Prop :=
  ∃ first db', syncDashboardsFromNodered P db tabs = .ok (first, db') ∧
    (∀ tab ∈ tabs, ∃! e, e ∈ db'.entities.rows ∧ e.mirrors tab.id) ∧
    (∀ e, (∀ tab ∈ tabs, e.mirrors tab.id = false) → (e ∈ db'.entities.rows ↔ e ∈ db.entities.rows)) ∧
    ∃ second, syncDashboardsFromNodered P db' tabs = .ok (second, db') ∧ second.added = 0 ∧
      second.updated = 0 ∧ second.notified = false

/-- Every name is free when its tab's turn comes: it is one tab's only, a new dashboard has one, and
a stored entity that has it is the tab's own or an earlier tab's, and each tab has one entity at
most. -/
structure Clear (db : Db) (tabs : List Tab) : Prop where
  single : ∀ tab ∈ tabs, ∀ e ∈ db.entities.rows, ∀ e' ∈ db.entities.rows, e.mirrors tab.id →
    e'.mirrors tab.id → e = e'
  names : (tabs.map (·.name)).Nodup
  named : ∀ tab ∈ tabs, tab.name ≠ "" ∨ ∃ e ∈ db.entities.rows, e.mirrors tab.id
  free : ∀ before tab after, tabs = before ++ tab :: after → ∀ e ∈ db.entities.rows, e.name = tab.name →
    e.mirrors tab.id ∨ ∃ earlier ∈ before, e.mirrors earlier.id

/-! ### One tab -/

variable {P} {p p' : Progress} {tab : Tab} {rows rows' : List Entity} {e : Entity}

/-- What a tab's turn does to the entities. -/
inductive Turn (p : Progress) (tab : Tab) : Progress → Prop
  | kept (e : Entity) (he : p.db.getEntityForDashboard tab.id = some e) (hname : e.name = tab.name) :
    Turn p tab p
  | renamed (e : Entity) (he : p.db.getEntityForDashboard tab.id = some e) (hname : e.name ≠ tab.name)
    (name : String)
    (hexact : name = tab.name ↔ ∀ x ∈ p.db.entities.rows, x.name ≠ tab.name) (db : Db)
    (hrows : db.entities.rows = p.db.entities.rows.map fun x => if x.id = e.id then { x with name } else x) :
    Turn p tab ⟨db, p.added, p.updated + 1⟩
  | added (e : Entity) (hnone : ∀ x ∈ p.db.entities.rows, x.mirrors tab.id = false) (he : e.mirrors tab.id)
    (hexact : e.name = tab.name ↔ tab.name ≠ "" ∧ ∀ x ∈ p.db.entities.rows, x.name ≠ tab.name) (db : Db)
    (hrows : db.entities.rows = p.db.entities.rows ++ [e]) : Turn p tab ⟨db, p.added + 1, p.updated⟩

theorem getEntityByName_eq_none {db : Db} {name : String} : db.getEntityByName name = none ↔
    ∀ x ∈ db.entities.rows, x.name ≠ name := by
  simp [Db.getEntityByName]

theorem getEntityForDashboard_eq_none {db : Db} {id : String} :
    db.getEntityForDashboard id = none ↔ ∀ x ∈ db.entities.rows, x.mirrors id = false := by
  simp [Db.getEntityForDashboard]

theorem mem_of_getEntityForDashboard {db : Db} {id : String} (h : db.getEntityForDashboard id = some e) :
    e ∈ db.entities.rows ∧ e.mirrors id := by
  unfold Db.getEntityForDashboard at h
  exact ⟨List.mem_of_find?_eq_some h, by simpa using List.find?_some h⟩

theorem length_apart (tab : Tab) (name : String) : name.toList.length < (tab.apart name).toList.length := by
  have hopening : " (dash ".toList.length = 7 := by decide
  simp only [Tab.apart, String.toList_append, List.length_append, hopening]
  omega

theorem apart_ne (name : String) : tab.apart name ≠ name := fun heq => by
  have hlt := length_apart tab name
  rw [heq] at hlt
  omega

theorem updateEntity_ok {db db' : Db} {id name : String} (h : db.updateEntity id name = .ok db') :
    db'.entities.rows = db.entities.rows.map fun x => if x.id = id then { x with name } else x := by
  unfold Db.updateEntity at h
  split at h
  · cases h
  · next entities hentities =>
    have hrows := Table.modify_eq_some hentities
    dsimp only at h
    split at h
    · exact Except.ok.inj h ▸ hrows
    · exact Except.ok.inj h ▸ hrows

theorem createEntity_ok {db db' : Db} {name id : String} {description : Option String}
    (h : db.createEntity P name id description = .ok db') :
    ∃ e, db'.entities.rows = db.entities.rows ++ [e] ∧ e.mirrors id ∧ e.name = name := by
  unfold Db.createEntity at h
  split at h
  · cases h
  · next entities hentities =>
    have hrows := (Table.insert_eq_some hentities).2
    exact ⟨_, by rw [← Except.ok.inj h]; exact hrows, by simp [Entity.mirrors], rfl⟩

theorem exists_updateEntity {db : Db} {name : String} (id : String)
    (h : ∀ x ∈ db.entities.rows, x.name ≠ name) :
    ∃ db', db.updateEntity id name = .ok db' := by
  obtain ⟨entities, hentities⟩ :
      ∃ entities, db.entities.modify id (fun e => { e with name }) (fun _ => rfl) = some entities :=
    Table.exists_modify fun _ _ _ b hb _ => h b hb
  simp only [Db.updateEntity, hentities]
  split
  · exact ⟨_, rfl⟩
  · exact ⟨_, rfl⟩

theorem exists_createEntity {db : Db} {name : String} (hfresh : ∀ used, P.uuidv7 used ∉ used)
    (h : ∀ x ∈ db.entities.rows, x.name ≠ name) (id : String) (description : Option String) :
    ∃ db', db.createEntity P name id description = .ok db' := by
  obtain ⟨entities, hentities⟩ : ∃ entities,
    db.entities.insert ⟨P.uuidv7 (db.entities.rows.map (·.id)), name, .dashboard, description,
      none, none, none, some id⟩ = some entities := by
    exact Table.exists_insert fun b hb => ⟨fun hid => hfresh _ (List.mem_map.2 ⟨b, hb, hid⟩), h b hb⟩
  exact ⟨_, by rw [Db.createEntity, hentities]⟩

theorem map_eq_ok {α β ε : Type*} {f : α → β} {x : Except ε α} {b : β} (h : x.map f = .ok b) :
    ∃ a, x = .ok a ∧ f a = b := by
  cases x with
  | error error => cases h
  | ok a => exact ⟨a, rfl, Except.ok.inj h⟩

theorem syncTab_ok (h : syncTab P p tab = .ok p') : Turn p tab p' := by
  unfold syncTab at h
  split at h
  · next existing hexisting =>
    split at h
    · next hname =>
      obtain ⟨db, hdb, rfl⟩ := map_eq_ok h
      refine .renamed existing hexisting hname _ ?_ db (updateEntity_ok hdb)
      split
      · next collision hcollision =>
        unfold Db.getEntityByName at hcollision
        have hmem := List.mem_of_find?_eq_some hcollision
        have hsame : collision.name = tab.name := by simpa using List.find?_some hcollision
        have hid : collision.id ≠ existing.id := fun hid => by
          have heq := p.db.entities.eq_of_pk hmem (mem_of_getEntityForDashboard hexisting).1 hid
          exact hname (heq ▸ hsame)
        rw [if_pos hid]
        exact ⟨fun heq => absurd heq (apart_ne _), fun hfree => absurd hsame (hfree collision hmem)⟩
      · next hnone => exact ⟨fun _ => getEntityByName_eq_none.1 hnone, fun _ => rfl⟩
    · next hname => exact Except.ok.inj h ▸ .kept existing hexisting (not_not.1 hname)
  · next hnone =>
    obtain ⟨db, hdb, rfl⟩ := map_eq_ok h
    obtain ⟨e, hrows, he, hename⟩ := createEntity_ok hdb
    refine .added e (getEntityForDashboard_eq_none.1 hnone) he ?_ db hrows
    rw [hename]
    by_cases hempty : tab.name = ""
    · simp only [hempty, if_true, ne_eq, not_true_eq_false, false_and, iff_false]
      split
      · exact fun heq => by simp [Tab.apart, String.append_eq_empty_iff] at heq
      · exact fun heq => by simp [String.append_eq_empty_iff] at heq
    · simp only [hempty, if_false, ne_eq, not_false_eq_true, true_and]
      split
      · next htaken =>
        obtain ⟨x, hx⟩ := Option.isSome_iff_exists.1 htaken
        refine ⟨fun heq => absurd heq (apart_ne _), fun hfree => ?_⟩
        rw [getEntityByName_eq_none.2 hfree] at hx
        cases hx
      · next hfree =>
        rw [Option.not_isSome_iff_eq_none, getEntityByName_eq_none] at hfree
        exact ⟨fun _ => hfree, fun _ => rfl⟩

namespace Turn

/-- Only the tab's own dashboard is touched. -/
theorem mem_iff (h : Turn p tab p') (he : e.mirrors tab.id = false) : e ∈ p'.db.entities.rows ↔
    e ∈ p.db.entities.rows := by
  cases h with
  | kept => rfl
  | renamed x hx hname name hexact db hrows =>
    obtain ⟨hmem, hx⟩ := mem_of_getEntityForDashboard hx
    rw [hrows, List.mem_map]
    constructor
    · rintro ⟨y, hy, rfl⟩
      by_cases hid : y.id = x.id
      · rw [if_pos hid] at he
        rw [p.db.entities.eq_of_pk hy hmem hid] at he
        exact absurd hx (by simpa [Entity.mirrors] using he)
      · rwa [if_neg hid]
    · intro hy
      refine ⟨e, hy, if_neg fun hid => ?_⟩
      rw [p.db.entities.eq_of_pk hy hmem hid, hx] at he
      cases he
  | added x hnone hx hexact db hrows =>
    rw [hrows, List.mem_append, List.mem_singleton, or_iff_left]
    rintro rfl
    rw [hx] at he
    cases he

/-- A row keeps its id and the tab that it mirrors. -/
theorem keeps (h : Turn p tab p') (he : e ∈ p.db.entities.rows) :
    ∃ e' ∈ p'.db.entities.rows, e'.id = e.id ∧ ∀ d, e'.mirrors d = e.mirrors d := by
  cases h with
  | kept => exact ⟨e, he, rfl, fun _ => rfl⟩
  | renamed x hx hname name hexact db hrows =>
    refine ⟨_, by rw [hrows]; exact List.mem_map_of_mem he, ?_⟩
    by_cases hid : e.id = x.id
    · rw [if_pos hid]
      exact ⟨rfl, fun _ => rfl⟩
    · rw [if_neg hid]
      exact ⟨rfl, fun _ => rfl⟩
  | added x hnone hx hexact db hrows =>
    exact ⟨e, by rw [hrows]; exact List.mem_append_left _ he, rfl, fun _ => rfl⟩

/-- The tab gets its own name where its dashboard has it already, or where no entity has it and it
is not the empty name of a new one. -/
theorem named (h : Turn p tab p') (hall : ∀ x ∈ p'.db.entities.rows, x.mirrors tab.id → x.name = tab.name) :
    (∃ x ∈ p.db.entities.rows, x.mirrors tab.id ∧ x.name = tab.name) ∨
      (∀ x ∈ p.db.entities.rows, x.name ≠ tab.name) ∧
      (tab.name ≠ "" ∨ ∃ x ∈ p.db.entities.rows, x.mirrors tab.id) := by
  cases h with
  | kept x hx hname =>
    obtain ⟨hmem, hx⟩ := mem_of_getEntityForDashboard hx
    exact .inl ⟨x, hmem, hx, hname⟩
  | renamed x hx hname name hexact db hrows =>
    obtain ⟨hmem, hx⟩ := mem_of_getEntityForDashboard hx
    have hmem' : { x with name } ∈ db.entities.rows := by
      rw [hrows, List.mem_map]
      exact ⟨x, hmem, if_pos rfl⟩
    exact .inr ⟨hexact.1 (hall _ hmem' hx), .inr ⟨x, hmem, hx⟩⟩
  | added x hnone hx hexact db hrows =>
    have hmem' : x ∈ db.entities.rows := by simp [hrows]
    obtain ⟨hne, hfree⟩ := hexact.1 (hall x hmem' hx)
    exact .inr ⟨hfree, .inl hne⟩

theorem has (h : Turn p tab p') : ∃ x ∈ p'.db.entities.rows, x.mirrors tab.id := by
  cases h with
  | kept x hx hname => exact ⟨x, mem_of_getEntityForDashboard hx⟩
  | renamed x hx hname name hexact db hrows =>
    obtain ⟨hmem, hm⟩ := mem_of_getEntityForDashboard hx
    exact ⟨{ x with name }, by rw [hrows, List.mem_map]; exact ⟨x, hmem, if_pos rfl⟩, hm⟩
  | added x hnone hx hexact db hrows => exact ⟨x, by simp [hrows], hx⟩

theorem counters (h : Turn p tab p') :
    p.added + p.updated ≤ p'.added + p'.updated ∧
      (p.added + p.updated = p'.added + p'.updated →
        p' = p ∧ ∃ x, p.db.getEntityForDashboard tab.id = some x ∧ x.name = tab.name) := by
  cases h with
  | kept x hx hname => exact ⟨le_rfl, fun _ => ⟨rfl, x, hx, hname⟩⟩
  | renamed => exact ⟨by dsimp only; omega, fun heq => by dsimp only at heq; omega⟩
  | added => exact ⟨by dsimp only; omega, fun heq => by dsimp only at heq; omega⟩

end Turn

/-! ### One run -/

variable {tabs before after : List Tab} {db : Db}

theorem run_cons (h : (tab :: tabs).foldlM (syncTab P) p = .ok p') :
    ∃ p₁, syncTab P p tab = .ok p₁ ∧ tabs.foldlM (syncTab P) p₁ = .ok p' := by
  rw [List.foldlM_cons] at h
  cases hturn : syncTab P p tab with
  | error error => rw [hturn] at h; cases h
  | ok p₁ => rw [hturn] at h; exact ⟨p₁, rfl, h⟩

theorem run_append (h : (before ++ after).foldlM (syncTab P) p = .ok p') :
    ∃ p₁, before.foldlM (syncTab P) p = .ok p₁ ∧ after.foldlM (syncTab P) p₁ = .ok p' := by
  rw [List.foldlM_append] at h
  cases hrun : before.foldlM (syncTab P) p with
  | error error => rw [hrun] at h; cases h
  | ok p₁ => rw [hrun] at h; exact ⟨p₁, rfl, h⟩

theorem run_mem_iff (h : tabs.foldlM (syncTab P) p = .ok p') (he : ∀ tab ∈ tabs, e.mirrors tab.id = false) :
    e ∈ p'.db.entities.rows ↔ e ∈ p.db.entities.rows := by
  induction tabs generalizing p with
  | nil => rw [Except.ok.inj h]
  | cons tab tabs ih =>
    obtain ⟨p₁, hturn, hrun⟩ := run_cons h
    rw [ih hrun fun t ht => he t (List.mem_cons_of_mem _ ht)]
    exact (syncTab_ok hturn).mem_iff (he tab List.mem_cons_self)

theorem run_keeps (h : tabs.foldlM (syncTab P) p = .ok p') (he : e ∈ p.db.entities.rows) :
    ∃ e' ∈ p'.db.entities.rows, e'.id = e.id ∧ ∀ d, e'.mirrors d = e.mirrors d := by
  induction tabs generalizing p e with
  | nil => exact ⟨e, Except.ok.inj h ▸ he, rfl, fun _ => rfl⟩
  | cons tab tabs ih =>
    obtain ⟨p₁, hturn, hrun⟩ := run_cons h
    obtain ⟨e₁, he₁, hid₁, hmirrors₁⟩ := (syncTab_ok hturn).keeps he
    obtain ⟨e', he', hid, hmirrors⟩ := ih hrun he₁
    exact ⟨e', he', hid.trans hid₁, fun d => (hmirrors d).trans (hmirrors₁ d)⟩

/-- Every tab's dashboard has the tab's name. -/
def Settled (db : Db) (tabs : List Tab) : Prop :=
  ∀ tab ∈ tabs, ∃ e, db.getEntityForDashboard tab.id = some e ∧ e.name = tab.name

theorem run_settled (h : Settled p.db tabs) : tabs.foldlM (syncTab P) p = .ok p := by
  induction tabs with
  | nil => rfl
  | cons tab tabs ih =>
    obtain ⟨e, he, hname⟩ := h tab List.mem_cons_self
    have hturn : syncTab P p tab = .ok p := by simp [syncTab, he, hname]
    rw [List.foldlM_cons, hturn]
    exact ih fun t ht => h t (List.mem_cons_of_mem _ ht)

theorem run_counters (h : tabs.foldlM (syncTab P) p = .ok p') :
    p.added + p.updated ≤ p'.added + p'.updated ∧
    (p.added + p.updated = p'.added + p'.updated → Settled p.db tabs) := by
  induction tabs generalizing p with
  | nil => exact ⟨by rw [Except.ok.inj h], fun _ _ ht => nomatch ht⟩
  | cons tab tabs ih =>
    obtain ⟨p₁, hturn, hrun⟩ := run_cons h
    obtain ⟨hle₁, heq₁⟩ := (syncTab_ok hturn).counters
    obtain ⟨hle, heq⟩ := ih hrun
    refine ⟨hle₁.trans hle, fun hsame => ?_⟩
    obtain ⟨rfl, hfirst⟩ := heq₁ (by omega)
    intro t ht
    rcases List.mem_cons.1 ht with rfl | ht
    · exact hfirst
    · exact heq hsame t ht

theorem sync_eq_ok {tabs : List Tab} {db db' : Db} {report : Report}
    (h : syncDashboardsFromNodered P db tabs = .ok (report, db')) :
    ∃ p, tabs.foldlM (syncTab P) ⟨db, 0, 0⟩ = .ok p ∧ p.db = db' ∧ report.added = p.added ∧
    report.updated = p.updated := by
  obtain ⟨p, hrun, heq⟩ := map_eq_ok h
  obtain ⟨rfl, rfl⟩ := Prod.mk.inj heq
  exact ⟨p, hrun, rfl, rfl, rfl⟩

theorem settles_run : Settles P db tabs ↔ ∃ p, tabs.foldlM (syncTab P) ⟨db, 0, 0⟩ = .ok p ∧
    (∀ tab ∈ tabs, ∃! e, e ∈ p.db.entities.rows ∧ e.mirrors tab.id) ∧ Settled p.db tabs := by
  constructor
  · rintro ⟨first, db', hfirst, hunique, hframe, second, hsecond, hadded, hupdated, hnotified⟩
    obtain ⟨p, hrun, rfl, -, -⟩ := sync_eq_ok hfirst
    obtain ⟨p', hrun', -, hadded', hupdated'⟩ := sync_eq_ok hsecond
    exact ⟨p, hrun, hunique, (run_counters hrun').2 (by dsimp only; omega)⟩
  · rintro ⟨p, hrun, hunique, hsettled⟩
    have hagain : tabs.foldlM (syncTab P) ⟨p.db, 0, 0⟩ = .ok ⟨p.db, 0, 0⟩ := run_settled hsettled
    refine ⟨_,
      _, by
      unfold syncDashboardsFromNodered; rw [hrun]; rfl, hunique, fun e he => run_mem_iff hrun he, ?_⟩
    exact ⟨_, by unfold syncDashboardsFromNodered; rw [hagain]; rfl, rfl, rfl, rfl⟩

/-! ### When a run settles -/

theorem mirrors_inj {d d' : String} (h : e.mirrors d) (h' : e.mirrors d') : d = d' := by
  simp only [Entity.mirrors, Bool.and_eq_true, decide_eq_true_eq] at h h'
  exact Option.some.inj (h.2.symm.trans h'.2)

theorem mirrors_eq_false {d d' : String} (h : e.mirrors d) (hne : d ≠ d') : e.mirrors d' = false :=
  Bool.eq_false_iff.2 fun h' => hne (mirrors_inj h h')

theorem apart_of_nodup {f : Tab → String} (h : ((before ++ tab :: after).map f).Nodup) :
    (∀ t ∈ before, f t ≠ f tab) ∧ ∀ t ∈ after, f t ≠ f tab := by
  rw [List.map_append, List.map_cons, List.nodup_append] at h
  obtain ⟨-, hafter, hdisjoint⟩ := h
  refine ⟨fun t ht => hdisjoint _ (List.mem_map_of_mem ht) _ List.mem_cons_self, fun t ht heq => ?_⟩
  exact (List.nodup_cons.1 hafter).1 (heq ▸ List.mem_map_of_mem ht)

section Necessary

variable (hids : (tabs.map (·.id)).Nodup) (hrun : tabs.foldlM (syncTab P) ⟨db, 0, 0⟩ = .ok p)
  (hunique : ∀ tab ∈ tabs, ∃! e, e ∈ p.db.entities.rows ∧ e.mirrors tab.id) (hsettled : Settled p.db tabs)
include hrun hunique

theorem single_of_settled : ∀ tab ∈ tabs, ∀ e ∈ db.entities.rows, ∀ e' ∈ db.entities.rows,
    e.mirrors tab.id → e'.mirrors tab.id → e = e' := by
  intro tab htab e he e' he' hm hm'
  obtain ⟨x, hx, hid, hmirrors⟩ := run_keeps hrun he
  obtain ⟨x', hx', hid', hmirrors'⟩ := run_keeps hrun he'
  have hsame : x = x' := (hunique tab htab).unique ⟨hx, (hmirrors _).trans hm⟩ ⟨hx', (hmirrors' _).trans hm'⟩
  exact db.entities.eq_of_pk he he' (by rw [← hid, ← hid', hsame])

include hsettled

omit hrun in
theorem name_of_settled (htab : tab ∈ tabs) (he : e ∈ p.db.entities.rows) (hm : e.mirrors tab.id) :
    e.name = tab.name := by
  obtain ⟨x, hx, hname⟩ := hsettled tab htab
  rw [(hunique tab htab).unique ⟨he, hm⟩ (mem_of_getEntityForDashboard hx), hname]

include hids

/-- When the turn of a tab came, its name was free or its own. -/
theorem turn_of_settled (htabs : tabs = before ++ tab :: after) :
    ∃ p₁, before.foldlM (syncTab P) ⟨db, 0, 0⟩ = .ok p₁ ∧
      ((∃ x ∈ p₁.db.entities.rows, x.mirrors tab.id ∧ x.name = tab.name) ∨
        (∀ x ∈ p₁.db.entities.rows, x.name ≠ tab.name) ∧
        (tab.name ≠ "" ∨ ∃ x ∈ p₁.db.entities.rows, x.mirrors tab.id)) := by
  have hafter := (apart_of_nodup (htabs ▸ hids)).2
  have htab : tab ∈ tabs := by simp [htabs]
  have hrun' := hrun
  rw [htabs] at hrun'
  obtain ⟨p₁, hbefore, hrest⟩ := run_append hrun'
  obtain ⟨p₂, hturn, hrest⟩ := run_cons hrest
  refine ⟨p₁, hbefore, (syncTab_ok hturn).named fun x hx hm => ?_⟩
  -- The tabs after it leave its dashboard as it is.
  refine name_of_settled hunique hsettled htab ((run_mem_iff hrest fun t ht => ?_).2 hx) hm
  exact mirrors_eq_false hm (hafter t ht).symm

theorem clear_of_settled : Clear db tabs where
  single := single_of_settled hrun hunique
  names := by
    refine (List.nodup_map_iff_inj_on hids.of_map).2 fun t ht t' ht' hname => ?_
    obtain ⟨x, hx, hxname⟩ := hsettled t ht
    obtain ⟨x', hx', hxname'⟩ := hsettled t' ht'
    obtain ⟨hmem, hm⟩ := mem_of_getEntityForDashboard hx
    obtain ⟨hmem', hm'⟩ := mem_of_getEntityForDashboard hx'
    have hsame : x = x' := p.db.entities.eq_of_uq hmem hmem' (by rw [hxname, hxname', hname])
    exact List.inj_on_of_nodup_map hids ht ht' (mirrors_inj hm (hsame ▸ hm'))
  named := by
    intro tab htab
    obtain ⟨before, after, htabs⟩ := List.append_of_mem htab
    have hbefore := (apart_of_nodup (htabs ▸ hids)).1
    obtain ⟨p₁, hrun₁, hturn⟩ := turn_of_settled hids hrun hunique hsettled htabs
    -- The tabs before it do not make its dashboard.
    have hstored : ∀ x ∈ p₁.db.entities.rows, x.mirrors tab.id →
        ∃ e ∈ db.entities.rows, e.mirrors tab.id := fun x hx hm =>
      ⟨x, (run_mem_iff hrun₁ fun t ht => mirrors_eq_false hm (hbefore t ht).symm).1 hx, hm⟩
    rcases hturn with ⟨x, hx, hm, -⟩ | ⟨-, hne | ⟨x, hx, hm⟩⟩
    · exact .inr (hstored x hx hm)
    · exact .inl hne
    · exact .inr (hstored x hx hm)
  free := by
    intro before tab after htabs e he hname
    obtain ⟨p₁, hrun₁, hturn⟩ := turn_of_settled hids hrun hunique hsettled htabs
    by_contra hother
    push Not at hother
    have hmem := (run_mem_iff hrun₁ fun t ht => Bool.eq_false_iff.2 (hother.2 t ht)).2 he
    rcases hturn with ⟨x, hx, hm, hxname⟩ | ⟨hfree, -⟩
    · have hsame : x = e := p₁.db.entities.eq_of_uq hx hmem (hxname.trans hname.symm)
      exact hother.1 (hsame ▸ hm)
    · exact hfree e hmem hname

end Necessary

section Sufficient

/-- After the turns of `before`: its tabs have dashboards of their names, and the other rows are the
stored ones. -/
structure Mirrored (db : Db) (before : List Tab) (p : Progress) : Prop where
  rows : ∀ e ∈ p.db.entities.rows, (e ∈ db.entities.rows ∧ ∀ t ∈ before, e.mirrors t.id = false) ∨
    ∃ t ∈ before, e.mirrors t.id ∧ e.name = t.name
  stored : ∀ e ∈ db.entities.rows, (∀ t ∈ before, e.mirrors t.id = false) → e ∈ p.db.entities.rows
  dashboards : ∀ t ∈ before, ∃ e ∈ p.db.entities.rows, e.mirrors t.id

variable (hids : (tabs.map (·.id)).Nodup) (hclear : Clear db tabs)
  (htabs : tabs = before ++ tab :: after) (hmirrored : Mirrored db before p)
include hids hclear htabs hmirrored

omit hclear in
theorem Mirrored.row (he : e ∈ p.db.entities.rows) (hm : e.mirrors tab.id) : e ∈ db.entities.rows := by
  rcases hmirrored.rows e he with ⟨hdb, -⟩ | ⟨t, ht, hmt, -⟩
  · exact hdb
  · exact absurd (mirrors_inj hmt hm) ((apart_of_nodup (htabs ▸ hids)).1 t ht)

theorem Mirrored.single (he : e ∈ p.db.entities.rows) (hm : e.mirrors tab.id) {e' : Entity}
    (he' : e' ∈ p.db.entities.rows) (hm' : e'.mirrors tab.id) : e = e' :=
  hclear.single tab (by simp [htabs]) e (hmirrored.row hids htabs he hm) e'
    (hmirrored.row hids htabs he' hm') hm hm'

omit hids in
/-- Whoever has the tab's name is its own dashboard. -/
theorem Mirrored.own (he : e ∈ p.db.entities.rows) (hname : e.name = tab.name) : e.mirrors tab.id := by
  rcases hmirrored.rows e he with ⟨hdb, hnot⟩ | ⟨t, ht, -, hnamet⟩
  · rcases hclear.free before tab after htabs e hdb hname with hm | ⟨t, ht, hm⟩
    · exact hm
    · exact absurd hm (by simp [hnot t ht])
  · exact absurd (hnamet.symm.trans hname) ((apart_of_nodup (htabs ▸ hclear.names)).1 t ht)

omit hids in
theorem Mirrored.unused (hnot : ∀ x ∈ p.db.entities.rows, x.mirrors tab.id → x.name ≠ tab.name) :
    ∀ x ∈ p.db.entities.rows, x.name ≠ tab.name :=
  fun x hx hname => hnot x hx (hmirrored.own hclear htabs hx hname) hname

theorem Mirrored.nonempty (hnone : ∀ x ∈ p.db.entities.rows, x.mirrors tab.id = false) : tab.name ≠ "" := by
  rcases hclear.named tab (by simp [htabs]) with hne | ⟨e, he, hm⟩
  · exact hne
  · have hbefore := (apart_of_nodup (htabs ▸ hids)).1
    have hmem := hmirrored.stored e he fun t ht => mirrors_eq_false hm (hbefore t ht).symm
    exact absurd hm (by simp [hnone e hmem])

theorem Mirrored.completes (hfresh : ∀ used, P.uuidv7 used ∉ used) : ∃ p', syncTab P p tab = .ok p' := by
  unfold syncTab
  cases hexisting : p.db.getEntityForDashboard tab.id with
  | some existing =>
    obtain ⟨hmem, hm⟩ := mem_of_getEntityForDashboard hexisting
    by_cases hname : existing.name = tab.name
    · exact ⟨p, by simp [hname]⟩
    · have hfree := hmirrored.unused hclear htabs fun x hx hmx =>
        hmirrored.single hids hclear htabs hmem hm hx hmx ▸ hname
      obtain ⟨db', hdb'⟩ := exists_updateEntity existing.id hfree
      apply Exists.intro
      simp only [ne_eq, hname, not_false_eq_true, if_true, getEntityByName_eq_none.2 hfree, hdb']
      rfl
  | none =>
    have hnone := getEntityForDashboard_eq_none.1 hexisting
    have hfree := hmirrored.unused hclear htabs fun x hx hmx => absurd hmx (by simp [hnone x hx])
    have hnonempty := hmirrored.nonempty hids hclear htabs hnone
    obtain ⟨db', hdb'⟩ := exists_createEntity hfresh hfree tab.id (if tab.hidden then some "hidden tab"
      else none)
    refine ⟨⟨db', p.added + 1, p.updated⟩, ?_⟩
    simp only [if_neg hnonempty, getEntityByName_eq_none.2 hfree, Option.isSome_none,
      Bool.false_eq_true, if_false, hdb']
    rfl

/-- The turn gives the tab's dashboard its name. -/
theorem Mirrored.exact (hturn : Turn p tab p') (he : e ∈ p'.db.entities.rows) (hm : e.mirrors tab.id) :
    e.name = tab.name := by
  cases hturn with
  | kept x hx hname =>
    obtain ⟨hmem, hmx⟩ := mem_of_getEntityForDashboard hx
    exact hmirrored.single hids hclear htabs hmem hmx he hm ▸ hname
  | renamed x hx hname name hexact db' hrows =>
    obtain ⟨hmem, hmx⟩ := mem_of_getEntityForDashboard hx
    have hfree := hmirrored.unused hclear htabs fun y hy hmy =>
      hmirrored.single hids hclear htabs hmem hmx hy hmy ▸ hname
    rw [hrows, List.mem_map] at he
    obtain ⟨y, hy, rfl⟩ := he
    split at hm
    · next hid =>
      rw [if_pos hid]
      exact hexact.2 hfree
    · next hid =>
        exact absurd (congrArg Entity.id (hmirrored.single hids hclear htabs hmem hmx hy hm)).symm hid
  | added x hnone hx hexact db' hrows =>
    have hfree := hmirrored.unused hclear htabs fun y hy hmy => absurd hmy (by simp [hnone y hy])
    rw [hrows, List.mem_append, List.mem_singleton] at he
    rcases he with he | rfl
    · exact absurd hm (by simp [hnone e he])
    · exact hexact.2 ⟨hmirrored.nonempty hids hclear htabs hnone, hfree⟩

theorem Mirrored.step (hturn : Turn p tab p') : Mirrored db (before ++ [tab]) p' where
  rows := by
    intro e he
    by_cases hm : e.mirrors tab.id
    · exact .inr ⟨tab, by simp, hm, hmirrored.exact hids hclear htabs hturn he hm⟩
    · rcases hmirrored.rows e ((hturn.mem_iff (Bool.eq_false_iff.2 hm)).1 he) with ⟨hdb, hnot⟩ | ⟨t,
        ht, hmt, hname⟩
      · exact .inl ⟨hdb, by simpa [or_imp, forall_and] using And.intro hnot hm⟩
      · exact .inr ⟨t, List.mem_append_left _ ht, hmt, hname⟩
  stored := by
    intro e he hnot
    refine (hturn.mem_iff (hnot tab (by simp))).2 (hmirrored.stored e he fun t ht =>
      hnot t (List.mem_append_left _ ht))
  dashboards := by
    intro t ht
    rcases List.mem_append.1 ht with ht | ht
    · obtain ⟨e, he, hm⟩ := hmirrored.dashboards t ht
      obtain ⟨e', he', -, hmirrors⟩ := hturn.keeps he
      exact ⟨e', he', (hmirrors _).trans hm⟩
    · rw [List.mem_singleton.1 ht]
      exact hturn.has

end Sufficient

theorem settles_of_clear (hids : (tabs.map (·.id)).Nodup) (hfresh : ∀ used, P.uuidv7 used ∉ used)
    (hclear : Clear db tabs) :
    Settles P db tabs := by
  have hrun : ∀ after before p, tabs = before ++ after → Mirrored db before p →
      ∃ p', after.foldlM (syncTab P) p = .ok p' ∧ Mirrored db tabs p' := by
    intro after
    induction after with
    | nil => exact fun before p htabs hmirrored => ⟨p, rfl, by rwa [htabs, List.append_nil]⟩
    | cons tab after ih =>
      intro before p htabs hmirrored
      obtain ⟨p₁, hturn⟩ := hmirrored.completes hids hclear htabs hfresh
      obtain ⟨p', hrest, hmirrored'⟩ :=
        ih (before ++ [tab]) p₁ (by simp [htabs]) (hmirrored.step hids hclear htabs (syncTab_ok hturn))
      exact ⟨p', by rw [List.foldlM_cons, hturn]; exact hrest, hmirrored'⟩
  have hstart : Mirrored db [] ⟨db, 0, 0⟩ :=
    ⟨fun e he => .inl ⟨he, fun _ ht => nomatch ht⟩, fun e he _ => he, fun _ ht => nomatch ht⟩
  obtain ⟨p, hp, hmirrored⟩ := hrun tabs [] _ rfl hstart
  have hname : ∀ tab ∈ tabs, ∀ e ∈ p.db.entities.rows, e.mirrors tab.id → e.name = tab.name := by
    intro tab htab e he hm
    rcases hmirrored.rows e he with ⟨-, hnot⟩ | ⟨t, ht, hmt, hname⟩
    · exact absurd hm (by simp [hnot tab htab])
    · rw [hname, List.inj_on_of_nodup_map hids ht htab (mirrors_inj hmt hm)]
  refine settles_run.2 ⟨p, hp, fun tab htab => ?_, fun tab htab => ?_⟩
  · obtain ⟨e, he, hm⟩ := hmirrored.dashboards tab htab
    refine ⟨e, ⟨he, hm⟩, fun e' he' => p.db.entities.eq_of_uq he'.1 he ?_⟩
    exact (hname tab htab e' he'.1 he'.2).trans (hname tab htab e he hm).symm
  · cases hfound : p.db.getEntityForDashboard tab.id with
    | none =>
      obtain ⟨e, he, hm⟩ := hmirrored.dashboards tab htab
      exact absurd hm (by simp [getEntityForDashboard_eq_none.1 hfound e he])
    | some e =>
      obtain ⟨he, hm⟩ := mem_of_getEntityForDashboard hfound
      exact ⟨e, rfl, hname tab htab e he hm⟩

theorem clear_of_settles (hids : (tabs.map (·.id)).Nodup) (hsettles : Settles P db tabs) : Clear db tabs := by
  obtain ⟨p, hrun, hunique, hsettled⟩ := settles_run.1 hsettles
  exact clear_of_settled hids hrun hunique hsettled

/-- Running the sync again finds nothing to do exactly where every tab gets its own name. -/
theorem settles_iff (hids : (tabs.map (·.id)).Nodup) (hfresh : ∀ used, P.uuidv7 used ∉ used) :
    Settles P db tabs ↔ Clear db tabs :=
  ⟨clear_of_settles hids, settles_of_clear hids hfresh⟩

namespace Repeated

def energy : Tab := ⟨"11aa", "Energy", false⟩

/-- A second tab of the same name. -/
def energyToo : Tab := ⟨"22bb", "Energy", true⟩

def nothing : Db := ⟨Table.empty, []⟩

/-- An id longer than those in use. -/
def platform : Platform :=
  ⟨fun used => String.ofList (List.replicate ((used.map String.length).sum + 1) '0'), id⟩

theorem platform_fresh : ∀ used, platform.uuidv7 used ∉ used := by
  intro used hused
  have hle := List.le_sum_of_mem (List.mem_map_of_mem (f := String.length) hused)
  simp only [platform, String.length_ofList, List.length_replicate] at hle
  omega

def water : Tab := ⟨"33cc", "Water", false⟩

/-- The first tab's dashboard under an old name, and an entity that no tab has to do with. -/
def stored : Db :=
  ⟨⟨[⟨"0", "Power", .dashboard, none, none, none, none, some "11aa"⟩,
    ⟨"1", "Clock", .html, none, none, some "<b></b>", none, none⟩],
    by decide, by decide⟩, [⟨some "0", .web, none, some "/dash/11aa", none⟩]⟩

/-- The dashboard is renamed, the second tab's is added, and the next run has nothing to do. -/
theorem settles_stored : Settles platform stored [energy, water] := by
  refine (settles_iff (by decide) platform_fresh).2 ⟨by decide, by decide, by decide, ?_⟩
  intro before tab after htabs e he hname
  have htab : tab ∈ [energy, water] := htabs ▸ List.mem_append_right _ List.mem_cons_self
  have hfree : ∀ tab ∈ [energy, water], ∀ e ∈ stored.entities.rows, e.name ≠ tab.name := by decide
  exact absurd hname (hfree tab htab e he)

/-- The second one's dashboard is renamed to what it is called already, and reported, by every run. -/
theorem not_settles : ([energy, energyToo].map (·.id)).Nodup ∧ ¬ Settles platform nothing
    [energy, energyToo] := by
  have hids : ([energy, energyToo].map (·.id)).Nodup := by decide
  exact ⟨hids, fun hsettles => absurd (clear_of_settles hids hsettles).names (by decide)⟩

end Repeated

end DashboardSync
