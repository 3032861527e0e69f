import Mathlib
import BetterFrame.Lib.Json
import BetterFrame.Lib.Run

/-!
# Cloning a layout

`Repository.cloneLayout`, what it calls, and the repository's other writes to layouts, cells and entities
(`Write`). `cloneLayout_faithful` says for which layouts the clone is one: those whose cells have no input
options and the columns that their entity's type asks for. In a database that these writes have made
(`Written`) the cells have these columns, so there only the input options count.
-/

namespace CloneLayout

inductive EntityType where
  | camera
  | html
  | web
  | dashboard
  | ablesign
deriving DecidableEq

def EntityType.name : EntityType → String
  | .camera => "camera"
  | .html => "html"
  | .web => "web"
  | .dashboard => "dashboard"
  | .ablesign => "ablesign"

structure Entity where
  id : String
  name : String
  type : EntityType
  description : Option String
  camera_id : Option String
  html_content : Option String
  web_url : Option String
  dashboard_id : Option String
  input_options_json : Json

structure Layout where
  id : String
  name : String
  description : Option String
  priority : String
  cooling_timeout_seconds : Option Int
  idle_timeout_seconds : Option Int
  preload_camera_ids : List String
  resets_idle_timer : Bool
  input_options_json : Json

/-- A row of `layout_cells`; a JSON column is the value that `j` reads of it. -/
structure CellRow where
  id : String
  layout_id : String
  row : Int
  col : Int
  row_span : Int
  col_span : Int
  content_type : String
  camera_id : Option String
  stream_selector : Option String
  web_url : Option String
  html_content : Option String
  cooling_timeout_seconds : Option Int
  options : Json
  entity_id : Option String
  fit : String
  input_options_json : Json

structure LayoutCell where
  id : String
  layout_id : String
  row : Int
  col : Int
  row_span : Int
  col_span : Int
  content_type : String
  camera_id : Option String
  stream_selector : String
  web_url : Option String
  html_content : Option String
  cooling_timeout_seconds : Option Int
  options : Json
  input_options_json : Json
  entity_id : Option String
  fit : String

/-- The row as the repository's callers see it. -/
def rowToLayoutCell (r : CellRow) : LayoutCell where
  id := r.id
  layout_id := r.layout_id
  row := r.row
  col := r.col
  row_span := if r.row_span = 0 then 1 else r.row_span
  col_span := if r.col_span = 0 then 1 else r.col_span
  content_type := r.content_type
  camera_id := r.camera_id
  stream_selector := r.stream_selector.getD ""
  web_url := r.web_url
  html_content := r.html_content
  cooling_timeout_seconds := r.cooling_timeout_seconds
  options := r.options
  input_options_json := r.input_options_json
  entity_id := r.entity_id
  fit := if r.fit = "" then "cover" else r.fit

/-- `layout_labels` and `display_layouts` hold the layout's id first. -/
structure Db where
  layouts : List Layout
  cells : List CellRow
  entities : List Entity
  labels : List (String × String)
  displays : List (String × String)

/-- The foreign keys on `layouts`. -/
structure Linked (db : Db) : Prop where
  cells : ∀ c ∈ db.cells, ∃ l ∈ db.layouts, l.id = c.layout_id
  labels : ∀ a ∈ db.labels, ∃ l ∈ db.layouts, l.id = a.1
  displays : ∀ a ∈ db.displays, ∃ l ∈ db.layouts, l.id = a.1

def emptyObject : Json := .obj []

def getLayoutById (db : Db) (id : String) : Option Layout := db.layouts.find? fun l => l.id = id

def getEntityById (db : Db) (id : String) : Option Entity := db.entities.find? fun e => e.id = id

/-- `ORDER BY "row", col` -/
def rowOrder (a b : CellRow) : Prop := a.row < b.row ∨ a.row = b.row ∧ a.col ≤ b.col

instance : DecidableRel rowOrder := fun _ _ => inferInstanceAs (Decidable (_ ∨ _))

/-- The cells of a layout from top to bottom. -/
def listLayoutCells (db : Db) (layoutId : String) : List LayoutCell :=
  ((db.cells.filter fun c => c.layout_id = layoutId).insertionSort rowOrder).map rowToLayoutCell

/-- The columns that a cell takes from its entity. -/
structure Content where
  content_type : String
  camera_id : Option String
  web_url : Option String
  html_content : Option String
deriving DecidableEq

/-- What a cell mirrors of its entity. -/
def Entity.content (ent : Entity) : Content where
  content_type := if ent.type = .dashboard then "web" else ent.type.name
  camera_id := if ent.type = .camera then ent.camera_id else none
  web_url :=
    if ent.type = .web then ent.web_url
    else if ent.type = .dashboard then
      match ent.dashboard_id with
      | some id => if id = "" then none else some ("/dash/" ++ id)
      | none => none
    else none
  html_content := if ent.type = .html then ent.html_content else none

/-- What a cell is created from. -/
structure CellInput where
  layout_id : String
  row : Int
  col : Int
  row_span : Option Int
  col_span : Option Int
  content_type : Option String
  camera_id : Option String
  stream_selector : Option String
  web_url : Option String
  html_content : Option String
  cooling_timeout_seconds : Option Int
  options : Option Json
  entity_id : Option String
  fit : Option String
  input_options_json : Option Json

/-- The row of a new cell: the entity's content, or the given one without an entity. -/
def createdRow (db : Db) (id : String) (input : CellInput) : CellRow :=
  let content : Content :=
    match input.entity_id.bind (getEntityById db) with
    | some ent => ent.content
    | none => ⟨input.content_type.getD "none", input.camera_id, input.web_url, input.html_content⟩
  { id := id
    layout_id := input.layout_id
    row := input.row
    col := input.col
    row_span := input.row_span.getD 1
    col_span := input.col_span.getD 1
    content_type := content.content_type
    camera_id := content.camera_id
    stream_selector := some (input.stream_selector.getD "auto")
    web_url := content.web_url
    html_content := content.html_content
    cooling_timeout_seconds := input.cooling_timeout_seconds
    options := input.options.getD emptyObject
    entity_id := input.entity_id
    fit := input.fit.getD "cover"
    input_options_json := input.input_options_json.getD emptyObject }

def createLayoutCell (db : Db) (id : String) (input : CellInput) : Db :=
  { db with cells := db.cells ++ [createdRow db id input] }

def CellRow.withContent (c : CellRow) (entityId : Option String) (content : Content) : CellRow :=
  { c with
    entity_id := entityId
    content_type := content.content_type
    camera_id := content.camera_id
    web_url := content.web_url
    html_content := content.html_content }

/-- Gives a cell an entity with its content, or takes the entity away. -/
def assignCellEntity (db : Db) (cellId : String) (entityId : Option String) : Db :=
  match entityId with
  | none =>
    { db with cells := db.cells.map fun c =>
      if c.id = cellId then c.withContent none ⟨"none", none, none, none⟩ else c }
  | some entityId =>
    match getEntityById db entityId with
    | none => db
    | some ent =>
      { db with cells := db.cells.map fun c => if c.id = cellId then c.withContent (some ent.id) ent.content
        else c }

/-- The fields that are given. -/
structure EntityPatch where
  name : Option String
  description : Option (Option String)
  camera_id : Option (Option String)
  html_content : Option (Option String)
  web_url : Option (Option String)
  dashboard_id : Option (Option String)
  input_options_json : Option Json

def EntityPatch.set (patch : EntityPatch) (e : Entity) : Entity :=
  { e with
    name := patch.name.getD e.name
    description := patch.description.getD e.description
    camera_id := patch.camera_id.getD e.camera_id
    html_content := patch.html_content.getD e.html_content
    web_url := patch.web_url.getD e.web_url
    dashboard_id := patch.dashboard_id.getD e.dashboard_id
    input_options_json := patch.input_options_json.getD e.input_options_json }

def EntityPatch.isEmpty (patch : EntityPatch) : Bool :=
  patch.name.isNone && patch.description.isNone && patch.camera_id.isNone &&
    patch.html_content.isNone && patch.web_url.isNone &&
    patch.dashboard_id.isNone && patch.input_options_json.isNone

/-- Changes an entity and the content of the cells that show it. -/
def updateEntity (db : Db) (id : String) (patch : EntityPatch) : Db :=
  if patch.isEmpty then db
  else
    let db := { db with entities := db.entities.map fun e => if e.id = id then patch.set e else e }
    match getEntityById db id with
    | none => db
    | some ent =>
      { db with cells := db.cells.map fun c =>
        if c.entity_id = some id then c.withContent (some id) ent.content else c }

/-- What an entity is created from. -/
structure EntityInput where
  name : String
  type : EntityType
  description : Option String
  camera_id : Option String
  html_content : Option String
  web_url : Option String
  dashboard_id : Option String

/-- `createEntity`, where `uuidv7` gives `id`; the database refuses a name that is there. -/
def createEntity (db : Db) (id : String) (input : EntityInput) : Option Db :=
  if input.name ∈ db.entities.map Entity.name then none
  else some { db with entities := db.entities ++
    [{ id := id
       name := input.name
       type := input.type
       description := input.description
       camera_id := if input.type = .camera then input.camera_id else none
       html_content := if input.type = .html then input.html_content else none
       web_url := if input.type = .web ∨ input.type = .ablesign then input.web_url else none
       dashboard_id := if input.type = .dashboard then input.dashboard_id else none
       input_options_json := emptyObject }] }

/-- `layout_cells.entity_id` has no foreign key, so the cells keep the id. -/
def deleteEntity (db : Db) (id : String) : Db := { db with entities := db.entities.filter fun e => e.id ≠ id }

/-- The columns that the callers of `updateLayoutCell` give. -/
structure CellPatch where
  row : Option Int
  col : Option Int
  row_span : Option Int
  col_span : Option Int
  stream_selector : Option String
  options : Option Json
  fit : Option String
  input_options_json : Option Json

def CellPatch.set (patch : CellPatch) (c : CellRow) : CellRow :=
  { c with
    row := patch.row.getD c.row
    col := patch.col.getD c.col
    row_span := patch.row_span.getD c.row_span
    col_span := patch.col_span.getD c.col_span
    stream_selector := patch.stream_selector <|> c.stream_selector
    options := patch.options.getD c.options
    fit := patch.fit.getD c.fit
    input_options_json := patch.input_options_json.getD c.input_options_json }

def updateLayoutCell (db : Db) (id : String) (patch : CellPatch) : Db :=
  { db with cells := db.cells.map fun c => if c.id = id then patch.set c else c }

def deleteLayoutCell (db : Db) (id : String) : Db := { db with cells := db.cells.filter fun c => c.id ≠ id }

/-- `createLayout`, with every field given; the database refuses an id or a name that is there. -/
def createLayout (db : Db) (l : Layout) : Option (Layout × Db) :=
  if l.id ∈ db.layouts.map Layout.id ∨ l.name ∈ db.layouts.map Layout.name then none
  else some (l, { db with layouts := db.layouts ++ [l] })

/-- `INSERT OR IGNORE` -/
def insertOrIgnore (pairs : List (String × String)) (pair : String × String) : List (String × String) :=
  if pair ∈ pairs then pairs else pairs ++ [pair]

def attachLayoutLabel (db : Db) (layoutId labelId : String) : Db :=
  { db with labels := insertOrIgnore db.labels (layoutId, labelId) }

def attachLayoutToDisplay (db : Db) (displayId layoutId : String) : Db :=
  { db with displays := insertOrIgnore db.displays (layoutId, displayId) }

def detachLayoutLabel (db : Db) (layoutId labelId : String) : Db :=
  { db with labels := db.labels.filter fun a => a ≠ (layoutId, labelId) }

def detachLayoutFromDisplay (db : Db) (displayId layoutId : String) : Db :=
  { db with displays := db.displays.filter fun a => a ≠ (layoutId, displayId) }

/-- `updateLayout`: the row of that id becomes `l`, unless another row has the name. -/
def updateLayout (db : Db) (l : Layout) : Option Db :=
  if ∃ x ∈ db.layouts, x.id ≠ l.id ∧ x.name = l.name then none
  else some { db with layouts := db.layouts.map fun x => if x.id = l.id then l else x }

/-- A layout with its cells, labels and displays. -/
def deleteLayout (db : Db) (id : String) : Db where
  layouts := db.layouts.filter fun l => l.id ≠ id
  cells := db.cells.filter fun c => c.layout_id ≠ id
  entities := db.entities
  labels := db.labels.filter fun a => a.1 ≠ id
  displays := db.displays.filter fun a => a.1 ≠ id

def copyName (name : String) (suffix : Nat) : String := name ++ " (copy " ++ toString suffix ++ ")"

/-- `while (await this._get("SELECT 1 FROM layouts WHERE name = ?", [cloneName]))` -/
def freeName (names : List String) (name : String) : Nat → String → Nat → Option String
  | 0, _, _ => none
  | fuel + 1, cloneName, suffix =>
    if cloneName ∈ names then freeName names name fuel (copyName name suffix) (suffix + 1) else some cloneName

/-- What `cloneLayout` passes on of a cell. -/
def cloneInput (cloneId : String) (c : LayoutCell) : CellInput where
  layout_id := cloneId
  row := c.row
  col := c.col
  row_span := some c.row_span
  col_span := some c.col_span
  content_type := some c.content_type
  camera_id := c.camera_id
  stream_selector := some c.stream_selector
  web_url := c.web_url
  html_content := c.html_content
  cooling_timeout_seconds := c.cooling_timeout_seconds
  options := some c.options
  entity_id := c.entity_id
  fit := some c.fit
  input_options_json := none

/-- `uuid` are the ids that `uuidv7` gives, the first of them to the layout. -/
def cloneLayout (uuid : Nat → String) (db : Db) (id : String) : Option (Layout × Db) := do
  let src ← getLayoutById db id
  let cloneName ← freeName (db.layouts.map Layout.name) src.name (db.layouts.length + 1)
    (src.name ++ " (copy)") 2
  let (clone, db) ← createLayout db { src with id := uuid 0, name := cloneName }
  let db := (listLayoutCells db id).zipIdx.foldl (fun db (c, i) =>
    createLayoutCell db (uuid (i + 1)) (cloneInput clone.id c)) db
  let labels := (db.labels.filter fun a => a.1 = id).map Prod.snd
  let db := labels.foldl (fun db l => attachLayoutLabel db clone.id l) db
  let displays := (db.displays.filter fun a => a.1 = id).map Prod.snd
  let db := displays.foldl (fun db d => attachLayoutToDisplay db d clone.id) db
  pure (clone, db)

/-! ### The database that the repository writes -/

/-- A write with what the caller and `uuidv7` give. A camera or sign screen that is deleted takes cells and
entities with it: `deleteLayoutCell` and `deleteEntity` of these. -/
inductive Write where
  | createLayout (l : Layout)
  | updateLayout (l : Layout)
  | deleteLayout (id : String)
  | cloneLayout (uuid : Nat → String) (id : String)
  | createLayoutCell (id : String) (input : CellInput)
  | assignCellEntity (cellId : String) (entityId : Option String)
  | updateLayoutCell (id : String) (patch : CellPatch)
  | deleteLayoutCell (id : String)
  | createEntity (id : String) (input : EntityInput)
  | updateEntity (id : String) (patch : EntityPatch)
  | deleteEntity (id : String)
  | attachLayoutLabel (layoutId labelId : String)
  | detachLayoutLabel (layoutId labelId : String)
  | attachLayoutToDisplay (displayId layoutId : String)
  | detachLayoutFromDisplay (displayId layoutId : String)

def Layout.Stored (db : Db) (id : String) : Prop := ∃ l ∈ db.layouts, l.id = id

instance (db : Db) (id : String) : Decidable (Layout.Stored db id) :=
  inferInstanceAs (Decidable (∃ l ∈ db.layouts, _))

/-- What the database holds after a write that it does not refuse. An entity's id is one that no row
has had. -/
def write (db : Db) : Write → Option Db
  | .createLayout l => (createLayout db l).map Prod.snd
  | .updateLayout l => updateLayout db l
  | .deleteLayout id => some (deleteLayout db id)
  | .cloneLayout uuid id => (cloneLayout uuid db id).map Prod.snd
  | .createLayoutCell id input =>
    if Layout.Stored db input.layout_id then some (createLayoutCell db id input) else none
  | .assignCellEntity cellId entityId => some (assignCellEntity db cellId entityId)
  | .updateLayoutCell id patch => some (updateLayoutCell db id patch)
  | .deleteLayoutCell id => some (deleteLayoutCell db id)
  | .createEntity id input =>
    if id ∈ db.entities.map Entity.id ∨ some id ∈ db.cells.map CellRow.entity_id then none
    else createEntity db id input
  | .updateEntity id patch => some (updateEntity db id patch)
  | .deleteEntity id => some (deleteEntity db id)
  | .attachLayoutLabel layoutId labelId =>
    if Layout.Stored db layoutId then some (attachLayoutLabel db layoutId labelId) else none
  | .detachLayoutLabel layoutId labelId => some (detachLayoutLabel db layoutId labelId)
  | .attachLayoutToDisplay displayId layoutId =>
    if Layout.Stored db layoutId then some (attachLayoutToDisplay db displayId layoutId) else none
  | .detachLayoutFromDisplay displayId layoutId => some (detachLayoutFromDisplay db displayId layoutId)

/-- The database that the migrations make. -/
def Db.empty : Db := ⟨[], [], [], [], []⟩

/-- The repository's own writes lead to the database. -/
def Written (db : Db) : Prop := ∃ ws, Machine.run write Db.empty ws = some db

/-! ### What a clone is -/

def LayoutCell.content (c : LayoutCell) : Content := ⟨c.content_type, c.camera_id, c.web_url, c.html_content⟩

/-- All but the ids agree. -/
def SameCell (a b : LayoutCell) : Prop := { b with id := a.id, layout_id := a.layout_id } = a

/-- The clone differs from its source in its identity alone, and the source is as it was. -/
structure Cloned (db : Db) (src clone : Layout) (db' : Db) : Prop where
  layout : { clone with id := src.id, name := src.name } = src
  stored : getLayoutById db' clone.id = some clone
  identity : clone.id ∉ db.layouts.map Layout.id ∧ clone.name ∉ db.layouts.map Layout.name
  cells : List.Forall₂ SameCell (listLayoutCells db src.id) (listLayoutCells db' clone.id)
  labels : ∀ l, (clone.id, l) ∈ db'.labels ↔ (src.id, l) ∈ db.labels
  displays : ∀ d, (clone.id, d) ∈ db'.displays ↔ (src.id, d) ∈ db.displays
  source : getLayoutById db' src.id = some src ∧ listLayoutCells db' src.id = listLayoutCells db src.id ∧
    (∀ l, (src.id, l) ∈ db'.labels ↔ (src.id, l) ∈ db.labels) ∧ ∀ d, (src.id, d) ∈ db'.displays ↔
      (src.id, d) ∈ db.displays

/-- The columns that the type of the entity asks for. -/
def Shows (ent : Entity) (c : Content) : Prop :=
  match ent.type with
  | .camera =>
    c.content_type = "camera" ∧ c.camera_id = ent.camera_id ∧ c.web_url = none ∧ c.html_content = none
  | .html =>
    c.content_type = "html" ∧ c.camera_id = none ∧ c.web_url = none ∧ c.html_content = ent.html_content
  | .web => c.content_type = "web" ∧ c.camera_id = none ∧ c.web_url = ent.web_url ∧ c.html_content = none
  | .dashboard =>
    c.content_type = "web" ∧ c.camera_id = none ∧ c.html_content = none ∧
      ((ent.dashboard_id = none ∨ ent.dashboard_id = some "") ∧ c.web_url = none ∨
        ∃ id, ent.dashboard_id = some id ∧ id ≠ "" ∧ c.web_url = some ("/dash/" ++ id))
  | .ablesign => c.content_type = "ablesign" ∧ c.camera_id = none ∧ c.web_url = none ∧ c.html_content = none

/-- The cell has no input options, and if its entity is there, the columns that this one's type asks for. -/
def Plain (db : Db) (c : LayoutCell) : Prop :=
  c.input_options_json = emptyObject ∧ ∀ ent, c.entity_id.bind (getEntityById db) = some ent →
    Shows ent c.content

theorem shows_iff {ent : Entity} {c : Content} : Shows ent c ↔ c = ent.content := by
  obtain ⟨type, camera, url, html⟩ := c
  obtain ⟨id, name, t, description, entCamera, entHtml, entUrl, dashboard, inputs⟩ := ent
  cases t
  case dashboard =>
    cases dashboard with
    | none => simp [Shows, Entity.content, and_comm]
    | some d => by_cases hd : d = "" <;> simp [Shows, Entity.content, hd, and_comm]
  all_goals simp [Shows, Entity.content, EntityType.name]

section Cells

variable {db db' : Db} {id cloneId layoutId : String} {input : CellInput} {c : LayoutCell}
  {r : CellRow} {uuid : Nat → String}

theorem createdRow_congr (h : db.entities = db'.entities) :
    createdRow db id input = createdRow db' id input := by
  have hget : getEntityById db = getEntityById db' := by
    funext e
    simp [getEntityById, h]
  simp [createdRow, hget]

/-- What the clone has in the place of a cell. -/
def cloned (db : Db) (cloneId : String) (id : String) (c : LayoutCell) : LayoutCell :=
  rowToLayoutCell (createdRow db id (cloneInput cloneId c))

theorem same_cloned (hrow : c.row_span ≠ 0) (hcol : c.col_span ≠ 0) (hfit : c.fit ≠ "") :
    SameCell c (cloned db cloneId id c) ↔ Plain db c := by
  obtain ⟨i, l, row, col, rows, cols, type, camera, selector, url, html, cooling, options, inputs,
    entity, fit⟩ := c
  simp only at hrow hcol hfit
  simp only [SameCell, cloned, rowToLayoutCell, createdRow, cloneInput, Option.getD_some,
    Option.getD_none, hrow, hcol, hfit, if_false,
    LayoutCell.mk.injEq, Plain, LayoutCell.content, true_and, and_true]
  cases hent : entity.bind (getEntityById db) with
  | none =>
    simp only [reduceCtorEq, false_imp_iff, implies_true, and_true, true_and]
    exact eq_comm
  | some ent =>
    simp only [Option.some.injEq, forall_eq']
    constructor
    · rintro ⟨htype, hcamera, hurl, hhtml, hinputs⟩
      exact ⟨hinputs.symm, shows_iff.mpr (by rw [← htype, ← hcamera, ← hurl, ← hhtml])⟩
    · rintro ⟨hinputs, hshows⟩
      have hcontent := shows_iff.mp hshows
      have := congrArg Content.content_type hcontent
      have := congrArg Content.camera_id hcontent
      have := congrArg Content.web_url hcontent
      have := congrArg Content.html_content hcontent
      simp_all

theorem mem_listLayoutCells (h : c ∈ listLayoutCells db layoutId) : c.row_span ≠ 0 ∧ c.col_span ≠ 0 ∧
    c.fit ≠ "" := by
  obtain ⟨r, -, rfl⟩ := List.mem_map.mp h
  refine ⟨?_, ?_, ?_⟩ <;> simp only [rowToLayoutCell] <;> split <;> simp_all

/-- The rows that the clone gets, in the order of the cells. -/
def clonedRows (uuid : Nat → String) (db : Db) (cloneId : String) (cells : List LayoutCell) : List CellRow :=
  cells.zipIdx.map fun x => createdRow db (uuid (x.2 + 1)) (cloneInput cloneId x.1)

theorem createCells_eq (l : List (LayoutCell × Nat)) (h : db.entities = db'.entities) :
    l.foldl (fun db x => createLayoutCell db (uuid (x.2 + 1)) (cloneInput cloneId x.1)) db' =
      { db' with cells := db'.cells ++ l.map fun x =>
        createdRow db (uuid (x.2 + 1)) (cloneInput cloneId x.1) } := by
  induction l generalizing db' with
  | nil => simp
  | cons x l ih =>
    rw [List.foldl_cons, @ih (createLayoutCell db' (uuid (x.2 + 1)) (cloneInput cloneId x.1)) h]
    simp [createLayoutCell, createdRow_congr h]

theorem clonedRows_sorted : (clonedRows uuid db cloneId (listLayoutCells db id)).Pairwise rowOrder := by
  have hsorted : ((db.cells.filter fun c => c.layout_id = id).insertionSort rowOrder).Pairwise rowOrder :=
    have : Std.Total rowOrder := ⟨fun a b => by simp only [rowOrder]; omega⟩
    have : IsTrans CellRow rowOrder := ⟨fun a b c => by simp only [rowOrder]; omega⟩
    List.pairwise_insertionSort _ _
  have hcells : (listLayoutCells db id).Pairwise fun a b => a.row < b.row ∨ a.row = b.row ∧ a.col ≤ b.col :=
    List.pairwise_map.mpr hsorted
  rw [← List.zipIdx_map_fst 0 (listLayoutCells db id), List.pairwise_map] at hcells
  exact List.pairwise_map.mpr hcells

theorem clonedRows_layout (h : r ∈ clonedRows uuid db cloneId (listLayoutCells db id)) :
    r.layout_id = cloneId := by
  obtain ⟨x, -, rfl⟩ := List.mem_map.mp h
  rfl

/-- The clone's cells are those of the layout, in order, exactly when all of these are plain. -/
theorem same_clonedRows : List.Forall₂ SameCell (listLayoutCells db id)
    ((clonedRows uuid db cloneId (listLayoutCells db id)).map rowToLayoutCell) ↔
    ∀ c ∈ listLayoutCells db id, Plain db c := by
  have hsame : ∀ c ∈ listLayoutCells db id, ∀ i, SameCell c (cloned db cloneId (uuid (i + 1)) c) ↔
      Plain db c := by
    intro c hc i
    obtain ⟨hrow, hcol, hfit⟩ := mem_listLayoutCells hc
    exact same_cloned hrow hcol hfit
  generalize listLayoutCells db id = cells at hsame
  have hsplit : List.Forall₂ SameCell cells ((clonedRows uuid db cloneId cells).map rowToLayoutCell) ↔
      ∀ x ∈ cells.zipIdx, SameCell x.1 (cloned db cloneId (uuid (x.2 + 1)) x.1) := by
    have h : List.Forall₂ SameCell (cells.zipIdx.map Prod.fst)
      ((clonedRows uuid db cloneId cells).map rowToLayoutCell) ↔
        ∀ x ∈ cells.zipIdx, SameCell x.1 (cloned db cloneId (uuid (x.2 + 1)) x.1) := by
      rw [clonedRows, List.map_map, List.forall₂_map_left_iff, List.forall₂_map_right_iff, List.forall₂_same]
      rfl
    rwa [List.zipIdx_map_fst] at h
  rw [hsplit]
  constructor
  · intro h c hc
    obtain ⟨i, hi, rfl⟩ := List.getElem_of_mem hc
    have hmem : (cells[i], i) ∈ cells.zipIdx :=
      List.mk_mem_zipIdx_iff_getElem?.mpr (List.getElem?_eq_getElem hi)
    exact (hsame _ hc i).mp (h _ hmem)
  · intro h x hx
    have hmem : x.1 ∈ cells := List.fst_mem_of_mem_zipIdx hx
    exact (hsame _ hmem x.2).mpr (h _ hmem)

end Cells

section Names

variable {names : List String} {name : String}

theorem copyName_inj {m n : Nat} (h : copyName name m = copyName name n) : m = n := by
  have hlist := congrArg String.toList h
  simp only [copyName, String.toList_append, List.append_assoc, List.append_cancel_left_eq,
    List.append_cancel_right_eq, Nat.toString_eq_ofList_toDigits, String.toList_ofList] at hlist
  have := congrArg (fun l => Nat.ofDigitChars 10 l 0) hlist
  simpa only [Nat.ofDigitChars_ten_toDigits] using this

theorem copy_ne_copyName (n : Nat) : name ++ " (copy)" ≠ copyName name n := by
  intro h
  have hlist := congrArg String.toList h
  simp [copyName, String.toList_append] at hlist

/-- The names that are tried. -/
def triedNames (name : String) : Nat → String → Nat → List String
  | 0, _, _ => []
  | fuel + 1, cloneName, suffix => cloneName :: triedNames name fuel (copyName name suffix) (suffix + 1)

theorem freeName_spec : ∀ {fuel : Nat} {cloneName : String} {suffix : Nat},
    (∃ free, freeName names name fuel cloneName suffix = some free ∧ free ∉ names) ∨
      freeName names name fuel cloneName suffix = none ∧ triedNames name fuel cloneName suffix ⊆ names
  | 0, _, _ => Or.inr ⟨rfl, List.nil_subset _⟩
  | fuel + 1, cloneName, suffix => by
    rw [freeName, triedNames]
    by_cases h : cloneName ∈ names
    · rw [if_pos h]
      rcases @freeName_spec fuel (copyName name suffix) (suffix + 1) with hfree | ⟨hnone, hsub⟩
      · exact Or.inl hfree
      · exact Or.inr ⟨hnone, List.cons_subset.mpr ⟨h, hsub⟩⟩
    · rw [if_neg h]
      exact Or.inl ⟨cloneName, rfl, h⟩

theorem mem_triedNames {x : String} : ∀ {fuel suffix : Nat}, x ∈ triedNames name fuel
    (copyName name suffix) (suffix + 1) → ∃ n, suffix ≤ n ∧ x = copyName name n
  | fuel + 1, suffix, h => by
    rcases List.mem_cons.mp h with rfl | h
    · exact ⟨suffix, Nat.le_refl _, rfl⟩
    · obtain ⟨n, hn, hx⟩ := mem_triedNames h
      exact ⟨n, by omega, hx⟩

theorem triedNames_nodup :
    ∀ {fuel suffix : Nat}, (triedNames name fuel (copyName name suffix) (suffix + 1)).Nodup
  | 0, _ => List.nodup_nil
  | fuel + 1, suffix => by
    refine List.nodup_cons.mpr ⟨fun h => ?_, triedNames_nodup⟩
    obtain ⟨n, hn, heq⟩ := mem_triedNames h
    have := copyName_inj heq
    omega

theorem length_triedNames : ∀ {fuel suffix : Nat} {cloneName : String},
    (triedNames name fuel cloneName suffix).length = fuel
  | 0, _, _ => rfl
  | _ + 1, _, _ => congrArg Nat.succ length_triedNames

/-- The loop ends: there are more names than layouts. -/
theorem freeName_isSome (names : List String) (name : String) :
    ∃ free, freeName names name (names.length + 1) (name ++ " (copy)") 2 = some free ∧ free ∉ names := by
  rcases @freeName_spec names name (names.length + 1) (name ++ " (copy)") 2
    with h | ⟨-, hsub⟩
  · exact h
  · have hnodup : (triedNames name (names.length + 1) (name ++ " (copy)") 2).Nodup := by
      refine List.nodup_cons.mpr ⟨fun h => ?_, triedNames_nodup⟩
      obtain ⟨n, -, heq⟩ := mem_triedNames h
      exact copy_ne_copyName n heq
    have hle := (List.subperm_of_subset hnodup hsub).length_le
    rw [length_triedNames] at hle
    omega

end Names

section Attach

variable {db : Db} {pairs : List (String × String)} {p : String × String} {cloneId x y : String}
  {l : List String}

def attachAll (cloneId : String) (pairs : List (String × String)) (l : List String) :
    List (String × String) :=
  l.foldl (fun pairs x => insertOrIgnore pairs (cloneId, x)) pairs

theorem mem_attachAll : (x, y) ∈ attachAll cloneId pairs l ↔ (x, y) ∈ pairs ∨ x = cloneId ∧ y ∈ l := by
  induction l generalizing pairs with
  | nil => simp [attachAll]
  | cons z l ih =>
    have hstep : attachAll cloneId pairs (z :: l) = attachAll cloneId
        (insertOrIgnore pairs (cloneId, z)) l := rfl
    have hmem : (x, y) ∈ insertOrIgnore pairs (cloneId, z) ↔ (x, y) ∈ pairs ∨ x = cloneId ∧ y = z := by
      unfold insertOrIgnore
      split
      · constructor
        · exact Or.inl
        · rintro (h | ⟨rfl, rfl⟩)
          · exact h
          · assumption
      · simp
    rw [hstep, ih, hmem, List.mem_cons]
    tauto

theorem attachLabels_eq :
    l.foldl (fun db x => attachLayoutLabel db cloneId x) db =
    { db with labels := attachAll cloneId db.labels l } := by
  induction l generalizing db with
  | nil => rfl
  | cons x l ih => exact @ih (attachLayoutLabel db cloneId x)

theorem attachDisplays_eq :
    l.foldl (fun db x => attachLayoutToDisplay db x cloneId) db =
    { db with displays := attachAll cloneId db.displays l } := by
  induction l generalizing db with
  | nil => rfl
  | cons x l ih => exact @ih (attachLayoutToDisplay db x cloneId)

/-- What a clone is attached to. -/
theorem mem_attached {id : String} (hfresh : ∀ a ∈ pairs, a.1 ≠ cloneId) :
    (cloneId, y) ∈ attachAll cloneId pairs ((pairs.filter fun a => a.1 = id).map Prod.snd) ↔
    (id, y) ∈ pairs := by
  rw [mem_attachAll]
  constructor
  · rintro (h | ⟨-, h⟩)
    · exact absurd rfl (hfresh _ h)
    · obtain ⟨⟨i, z⟩, ha, rfl⟩ := List.mem_map.mp h
      obtain ⟨hmem, hi⟩ := List.mem_filter.mp ha
      obtain rfl : i = id := by simpa using hi
      exact hmem
  · intro h
    exact Or.inr ⟨rfl, List.mem_map.mpr ⟨(id, y), List.mem_filter.mpr ⟨h, by simp⟩, rfl⟩⟩

end Attach

section Clone

variable {db : Db} {src : Layout} {id : String} {uuid : Nat → String}

/-- What `cloneLayout` leaves. -/
def afterClone (uuid : Nat → String) (db : Db) (id : String) (clone : Layout) : Db where
  layouts := db.layouts ++ [clone]
  cells := db.cells ++ clonedRows uuid db clone.id (listLayoutCells db id)
  entities := db.entities
  labels := attachAll clone.id db.labels ((db.labels.filter fun a => a.1 = id).map Prod.snd)
  displays := attachAll clone.id db.displays ((db.displays.filter fun a => a.1 = id).map Prod.snd)

theorem cloneLayout_eq (hsrc : getLayoutById db id = some src) (hfresh : uuid 0 ∉ db.layouts.map Layout.id) :
    ∃ name, name ∉ db.layouts.map Layout.name ∧ cloneLayout uuid db id =
      some ({ src with id := uuid 0, name := name },
      afterClone uuid db id { src with id := uuid 0, name := name }) := by
  obtain ⟨name, hname, hfree⟩ := freeName_isSome (db.layouts.map Layout.name) src.name
  rw [List.length_map] at hname
  refine ⟨name, hfree, ?_⟩
  have hcreate : createLayout db { src with id := uuid 0, name := name } =
      some ({ src with id := uuid 0, name := name },
            { db with layouts := db.layouts ++ [{ src with id := uuid 0, name := name }] }) :=
    if_neg (by rintro (h | h); exacts [hfresh h, hfree h])
  unfold cloneLayout
  simp only [hsrc, hname, hcreate, Option.bind_eq_bind, Option.bind_some, Option.pure_def,
    attachLabels_eq, attachDisplays_eq]
  have hcells := @createCells_eq db { db with layouts := db.layouts ++
    [{ src with id := uuid 0, name := name }] } (uuid 0) uuid
    (listLayoutCells db id).zipIdx rfl
  exact congrArg (fun d : Db => some (({ src with id := uuid 0, name := name } : Layout), ({ d with
    labels := attachAll (uuid 0) d.labels ((d.labels.filter fun a => a.1 = id).map Prod.snd)
    displays := attachAll (uuid 0) d.displays ((d.displays.filter fun a => a.1 = id).map Prod.snd) } : Db)))
      hcells

theorem listLayoutCells_clone {clone : Layout} (hlinked : Linked db)
    (hfresh : clone.id ∉ db.layouts.map Layout.id) :
    listLayoutCells (afterClone uuid db id clone) clone.id =
      (clonedRows uuid db clone.id (listLayoutCells db id)).map rowToLayoutCell := by
  have hold : db.cells.filter (fun c => c.layout_id = clone.id) = [] := by
    refine List.filter_eq_nil_iff.mpr fun c hc heq => ?_
    obtain ⟨l, hl, hid⟩ := hlinked.cells c hc
    exact hfresh (List.mem_map.mpr ⟨l, hl, hid.trans (by simpa using heq)⟩)
  have hnew : (clonedRows uuid db clone.id (listLayoutCells db id)).filter (fun c => c.layout_id = clone.id) =
      clonedRows uuid db clone.id (listLayoutCells db id) :=
    List.filter_eq_self.mpr fun r hr => by simpa using clonedRows_layout hr
  have happend : (afterClone uuid db id clone).cells = db.cells ++
      clonedRows uuid db clone.id (listLayoutCells db id) := rfl
  rw [listLayoutCells, happend, List.filter_append, hold, hnew, List.nil_append,
    clonedRows_sorted.insertionSort_eq]

theorem listLayoutCells_src {clone : Layout} {layoutId : String} (hne : layoutId ≠ clone.id) :
    listLayoutCells (afterClone uuid db id clone) layoutId = listLayoutCells db layoutId := by
  have hnew : (clonedRows uuid db clone.id (listLayoutCells db id)).filter
      (fun c => c.layout_id = layoutId) = [] :=
    List.filter_eq_nil_iff.mpr fun r hr => by simpa [clonedRows_layout hr] using hne.symm
  have happend : (afterClone uuid db id clone).cells = db.cells ++
      clonedRows uuid db clone.id (listLayoutCells db id) := rfl
  rw [listLayoutCells, happend, List.filter_append, hnew, List.append_nil]
  rfl

theorem exists_cloneLayout (hlinked : Linked db) (hsrc : getLayoutById db id = some src)
    (hfresh : uuid 0 ∉ db.layouts.map Layout.id) :
    ∃ clone db', cloneLayout uuid db id = some (clone, db') ∧
      (Cloned db src clone db' ↔ ∀ c ∈ listLayoutCells db id, Plain db c) := by
  obtain ⟨name, hname, heq⟩ := cloneLayout_eq hsrc hfresh
  refine ⟨_, _, heq, ?_⟩
  have hid : src.id = id := by simpa using List.find?_some hsrc
  have hmem : src ∈ db.layouts := List.mem_of_find?_eq_some hsrc
  have hne : src.id ≠ uuid 0 := fun h => hfresh (List.mem_map.mpr ⟨src, hmem, h⟩)
  generalize hclone : ({ src with id := uuid 0, name := name } : Layout) = clone
  have hcloneId : clone.id = uuid 0 := hclone ▸ rfl
  have hfresh' : clone.id ∉ db.layouts.map Layout.id := hcloneId ▸ hfresh
  have hlabels : ∀ a ∈ db.labels, a.1 ≠ clone.id := fun a ha h => by
    obtain ⟨l, hl, heq⟩ := hlinked.labels a ha
    exact hfresh' (List.mem_map.mpr ⟨l, hl, heq.trans h⟩)
  have hdisplays : ∀ a ∈ db.displays, a.1 ≠ clone.id := fun a ha h => by
    obtain ⟨l, hl, heq⟩ := hlinked.displays a ha
    exact hfresh' (List.mem_map.mpr ⟨l, hl, heq.trans h⟩)
  subst hid
  rw [← @same_clonedRows _ _ clone.id uuid, ← listLayoutCells_clone hlinked hfresh']
  constructor
  · exact fun h => h.cells
  · intro hcells
    refine ⟨by rw [← hclone], ?_, ⟨hfresh',
      ?_⟩, hcells, fun l => mem_attached hlabels, fun d => mem_attached hdisplays, ?_, ?_, ?_, ?_⟩
    · have hnone : db.layouts.find? (fun l => l.id = clone.id) = none := by
        refine List.find?_eq_none.mpr fun l hl h => hfresh' (List.mem_map.mpr ⟨l, hl, by simpa using h⟩)
      simp [getLayoutById, afterClone, List.find?_append, hnone]
    · rw [← hclone]
      exact hname
    · simp only [getLayoutById, afterClone, List.find?_append] at hsrc ⊢
      rw [hsrc]
      rfl
    · exact listLayoutCells_src (hcloneId ▸ hne)
    · intro l
      exact mem_attachAll.trans (or_iff_left fun h => hne (h.1.trans hcloneId))
    · intro d
      exact mem_attachAll.trans (or_iff_left fun h => hne (h.1.trans hcloneId))

end Clone

/-! ### Cells and their entities -/

def CellRow.content (c : CellRow) : Content := ⟨c.content_type, c.camera_id, c.web_url, c.html_content⟩

/-- A cell whose entity is there has its content. -/
def Mirrored (db : Db) : Prop := ∀ c ∈ db.cells, ∀ ent, c.entity_id.bind (getEntityById db) = some ent →
  c.content = ent.content

section Mirrors

variable {db : Db} {src : Layout} {id : String} {uuid : Nat → String} {input : CellInput}
  {c : CellRow} {ent : Entity}

theorem content_createdRow (h : (createdRow db id input).entity_id.bind (getEntityById db) = some ent) :
    (createdRow db id input).content = ent.content := by
  have h : input.entity_id.bind (getEntityById db) = some ent := h
  simp [createdRow, CellRow.content, h]

theorem Mirrored.createLayoutCell (h : Mirrored db) : Mirrored (createLayoutCell db id input) := by
  intro c hc ent hent
  rcases List.mem_append.mp hc with hc | hc
  · exact h c hc ent hent
  · obtain rfl := List.mem_singleton.mp hc
    exact content_createdRow hent

theorem getEntityById_id (h : getEntityById db id = some ent) : ent.id = id := by
  simpa using List.find?_some h

theorem Mirrored.assignCellEntity {cellId : String} {entityId : Option String} (h : Mirrored db) :
    Mirrored (assignCellEntity db cellId entityId) := by
  unfold CloneLayout.assignCellEntity
  split
  · intro c hc ent hent
    obtain ⟨d, hd, rfl⟩ := List.mem_map.mp hc
    split at hent
    · cases hent
    · rw [if_neg ‹_›]
      exact h d hd ent hent
  · split
    · exact h
    · rename_i entityId ent' hget
      intro c hc ent hent
      obtain ⟨d, hd, rfl⟩ := List.mem_map.mp hc
      split at hent
      · rw [if_pos ‹_›]
        have hsame : getEntityById db ent'.id = some ent := hent
        rw [getEntityById_id hget, hget] at hsame
        rw [← Option.some.inj hsame]
        rfl
      · rw [if_neg ‹_›]
        exact h d hd ent hent

theorem Mirrored.updateEntity {patch : EntityPatch} (h : Mirrored db) :
    Mirrored (updateEntity db id patch) := by
  unfold CloneLayout.updateEntity
  split
  · exact h
  · set db' : Db := { db with entities := db.entities.map fun e => if e.id = id then patch.set e
      else e } with hdb'
    have hother : ∀ e, e ≠ id → getEntityById db' e = getEntityById db e := by
      intro e he
      have hids : (fun x : Entity => decide ((if x.id = id then patch.set x else x).id = e)) = fun x =>
          decide (x.id = e) := by
        funext x
        split <;> rfl
      simp only [hdb', getEntityById, List.find?_map, Function.comp_def, hids]
      cases hfind : db.entities.find? fun x => x.id = e with
      | none => rfl
      | some x =>
        have hx : x.id = e := by simpa using List.find?_some hfind
        rw [Option.map_some, if_neg (hx ▸ he)]
    have hmirrored : ∀ c ∈ db.cells, c.entity_id ≠ some id →
      ∀ ent, c.entity_id.bind (getEntityById db') = some ent →
        c.content = ent.content := by
      intro c hc hne ent hent
      refine h c hc ent ?_
      cases hid : c.entity_id with
      | none => rw [hid] at hent; cases hent
      | some e =>
        rw [hid] at hent hne
        have hget := hother e fun he => hne (congrArg some he)
        exact hget.symm.trans hent
    simp only
    split
    · rename_i hnone
      intro c hc ent hent
      by_cases hid : c.entity_id = some id
      · rw [hid] at hent
        cases hnone.symm.trans hent
      · exact hmirrored c hc hid ent hent
    · rename_i ent' hget
      intro c hc ent hent
      obtain ⟨d, hd, rfl⟩ := List.mem_map.mp hc
      split at hent
      · rw [if_pos ‹_›]
        rw [← Option.some.inj (hget.symm.trans hent)]
        rfl
      · rw [if_neg ‹_›]
        exact hmirrored d hd ‹_› ent hent

theorem Mirrored.afterClone {clone : Layout} (h : Mirrored db) : Mirrored (afterClone uuid db id clone) := by
  intro c hc ent hent
  rcases List.mem_append.mp hc with hc | hc
  · exact h c hc ent hent
  · obtain ⟨x, -, rfl⟩ := List.mem_map.mp hc
    exact content_createdRow hent

theorem Mirrored.updateLayoutCell {patch : CellPatch} (h : Mirrored db) :
    Mirrored (updateLayoutCell db id patch) := by
  intro c hc ent hent
  obtain ⟨d, hd, rfl⟩ := List.mem_map.mp hc
  split at hent
  · rw [if_pos ‹_›]
    exact h d hd ent hent
  · rw [if_neg ‹_›]
    exact h d hd ent hent

theorem Mirrored.createEntity {input : EntityInput} (h : Mirrored db)
    (hunused : some id ∉ db.cells.map CellRow.entity_id)
    (hcreate : createEntity db id input = some db') : Mirrored db' := by
  unfold CloneLayout.createEntity at hcreate
  split at hcreate
  · cases hcreate
  obtain rfl := Option.some.inj hcreate
  intro c hc ent hent
  refine h c hc ent ?_
  cases hid : c.entity_id with
  | none => rw [hid] at hent; cases hent
  | some e =>
    rw [hid] at hent
    have hne : id ≠ e := fun he => hunused (List.mem_map.mpr ⟨c, hc, hid.trans (congrArg some he.symm)⟩)
    simpa [getEntityById, List.find?_append, hne] using hent

theorem Mirrored.deleteEntity (h : Mirrored db) : Mirrored (deleteEntity db id) := by
  intro c hc ent hent
  refine h c hc ent ?_
  cases hid : c.entity_id with
  | none => rw [hid] at hent; cases hent
  | some e =>
    rw [hid] at hent
    have hfound : (db.entities.filter fun x => x.id ≠ id).find? (fun x => x.id = e) = some ent := hent
    rw [List.find?_filter] at hfound
    by_cases he : e = id
    · have := List.find?_some hfound
      simp_all
    · have hsame : (fun x : Entity => decide (decide (x.id ≠ id) = true ∧ decide (x.id = e) = true)) =
          fun x => decide (x.id = e) := by
        funext x
        by_cases hx : x.id = e <;> simp [hx, he]
      rwa [hsame] at hfound

theorem Mirrored.of_subset (h : Mirrored db) (hcells : db'.cells ⊆ db.cells)
    (hentities : db'.entities = db.entities) :
    Mirrored db' := by
  intro c hc ent hent
  refine h c (hcells hc) ent ?_
  rwa [funext (fun e => by simp only [getEntityById,
    hentities] : ∀ e, getEntityById db' e = getEntityById db e)] at hent

theorem Mirrored.plain_iff (h : Mirrored db) : (∀ c ∈ listLayoutCells db id, Plain db c) ↔
    ∀ c ∈ listLayoutCells db id, c.input_options_json = emptyObject := by
  refine forall₂_congr fun c hc => and_iff_left fun ent hent => shows_iff.mpr ?_
  obtain ⟨r, hr, rfl⟩ := List.mem_map.mp hc
  exact h r (List.mem_filter.mp ((List.mem_insertionSort _).mp hr)).1 ent hent

end Mirrors

section Writes

variable {db db' : Db} {src clone : Layout} {id : String} {uuid : Nat → String} {w : Write}

theorem cloneLayout_some (h : cloneLayout uuid db id = some (clone, db')) :
    db' = afterClone uuid db id clone := by
  cases hsrc : getLayoutById db id with
  | none => simp [cloneLayout, hsrc] at h
  | some src =>
    by_cases hfresh : uuid 0 ∈ db.layouts.map Layout.id
    · obtain ⟨name, hname, -⟩ := freeName_isSome (db.layouts.map Layout.name) src.name
      rw [List.length_map] at hname
      have hcreate : createLayout db { src with id := uuid 0, name := name } = none := if_pos (Or.inl hfresh)
      simp [cloneLayout, hsrc, hname, hcreate] at h
    · obtain ⟨name, -, heq⟩ := cloneLayout_eq hsrc hfresh
      obtain ⟨rfl, rfl⟩ := Prod.mk.inj (Option.some.inj (heq.symm.trans h))
      rfl

theorem Mirrored.write (h : Mirrored db) (hw : write db w = some db') : Mirrored db' := by
  cases w with
  | createLayout l =>
    obtain ⟨⟨_, d⟩, hcreate, rfl⟩ := Option.map_eq_some_iff.mp hw
    obtain ⟨-, heq⟩ := Option.ite_none_left_eq_some.mp hcreate
    cases heq
    exact h
  | updateLayout l =>
    obtain ⟨-, heq⟩ := Option.ite_none_left_eq_some.mp hw
    cases heq
    exact h
  | deleteLayout id => exact Option.some.inj hw ▸ h.of_subset (List.filter_subset_self _) rfl
  | cloneLayout uuid id =>
    obtain ⟨⟨clone, d⟩, hclone, rfl⟩ := Option.map_eq_some_iff.mp hw
    rw [cloneLayout_some hclone]
    exact h.afterClone
  | createLayoutCell id input =>
    obtain ⟨-, heq⟩ := Option.ite_none_right_eq_some.mp hw
    cases heq
    exact h.createLayoutCell
  | assignCellEntity cellId entityId => exact Option.some.inj hw ▸ h.assignCellEntity
  | updateLayoutCell id patch => exact Option.some.inj hw ▸ h.updateLayoutCell
  | deleteLayoutCell id => exact Option.some.inj hw ▸ h.of_subset (List.filter_subset_self _) rfl
  | createEntity id input =>
    obtain ⟨hunused, heq⟩ := Option.ite_none_left_eq_some.mp hw
    exact h.createEntity (fun hmem => hunused (Or.inr hmem)) heq
  | updateEntity id patch => exact Option.some.inj hw ▸ h.updateEntity
  | deleteEntity id => exact Option.some.inj hw ▸ h.deleteEntity
  | attachLayoutLabel layoutId labelId =>
    obtain ⟨-, heq⟩ := Option.ite_none_right_eq_some.mp hw
    cases heq
    exact h
  | detachLayoutLabel layoutId labelId => exact Option.some.inj hw ▸ h
  | attachLayoutToDisplay displayId layoutId =>
    obtain ⟨-, heq⟩ := Option.ite_none_right_eq_some.mp hw
    cases heq
    exact h
  | detachLayoutFromDisplay displayId layoutId => exact Option.some.inj hw ▸ h

theorem Written.mirrored (h : Written db) : Mirrored db := by
  obtain ⟨ws, hrun⟩ := h
  exact Machine.run_inv (fun _ _ _ hw hmirrored => hmirrored.write hw) hrun fun c hc => nomatch hc

/-- The clone is one exactly when each cell of the layout is plain; in a database that the repository has
written, exactly when no cell has input options. -/
theorem cloneLayout_faithful (hlinked : Linked db) (hsrc : getLayoutById db id = some src)
    (hfresh : uuid 0 ∉ db.layouts.map Layout.id) :
    ∃ clone db', cloneLayout uuid db id = some (clone, db') ∧
      (Cloned db src clone db' ↔ ∀ c ∈ listLayoutCells db id, Plain db c) ∧
      (Written db → (Cloned db src clone db' ↔
        ∀ c ∈ listLayoutCells db id, c.input_options_json = emptyObject)) := by
  obtain ⟨clone, db', heq, hiff⟩ := exists_cloneLayout hlinked hsrc hfresh
  exact ⟨clone, db', heq, hiff, fun hwritten => hiff.trans hwritten.mirrored.plain_iff⟩

def sampleUuid (n : Nat) : String := "u" ++ toString n

def mainLayout : Layout :=
  ⟨"l1", "Main", none, "normal", none, some 600, ["cam1"], true, .obj [("touch", .bool true)]⟩

def door : Entity := ⟨"e1", "Door", .camera, none, some "cam1", none, none, none, emptyObject⟩

def energy : Entity := ⟨"e2", "Energy", .dashboard, none, none, none, none, some "11aa", emptyObject⟩

/-- A layout of a camera, a dashboard and a cell whose entity is gone, which a second layout has a
name next to. -/
def lobby : Db where
  layouts := [mainLayout, { mainLayout with id := "l2", name := "Main (copy)" }]
  cells :=
    [⟨"c2", "l1", 0, 1, 2, 1, "web", none, some "auto", some "/dash/11aa", none, none, emptyObject,
      some "e2", "cover", emptyObject⟩,
     ⟨"c1", "l1", 0, 0, 1, 1, "camera", some "cam1", some "sub", none, none, some 30, emptyObject,
       some "e1", "fill", emptyObject⟩,
     ⟨"c3", "l1", 1, 0, 1, 1, "html", none, none, none, some "<b></b>", none,
       .obj [("smart_url", emptyObject)], some "e9", "cover",
      emptyObject⟩]
  entities := [door, energy]
  labels := [("l1", "ground"), ("l2", "roof")]
  displays := [("l1", "d1"), ("l1", "d2")]

theorem cloneLayout_faithful_lobby :
    ∃ clone db', cloneLayout sampleUuid lobby "l1" = some (clone, db') ∧
    Cloned lobby mainLayout clone db' := by
  have hlinked : Linked lobby :=
    ⟨by simp [lobby, mainLayout], by simp [lobby, mainLayout], by simp [lobby, mainLayout]⟩
  obtain ⟨clone, db', heq, hiff, -⟩ :=
    @cloneLayout_faithful lobby mainLayout "l1" sampleUuid hlinked rfl (by decide)
  refine ⟨clone, db', heq, hiff.mpr fun c hc => ?_⟩
  obtain ⟨r, hr, rfl⟩ := List.mem_map.mp hc
  have hr : r ∈ lobby.cells := (List.mem_filter.mp ((List.mem_insertionSort _).mp hr)).1
  have hdoor : getEntityById lobby "e1" = some door := rfl
  have henergy : getEntityById lobby "e2" = some energy := rfl
  have hgone : getEntityById lobby "e9" = none := rfl
  simp only [lobby, List.mem_cons, List.not_mem_nil, or_false] at hr
  rcases hr with rfl | rfl | rfl
  · simp [Plain, rowToLayoutCell, LayoutCell.content, henergy, Shows, energy]
  · simp [Plain, rowToLayoutCell, LayoutCell.content, hdoor, Shows, door]
  · simp [Plain, rowToLayoutCell, hgone]

/-- A web cell with input options. -/
def touchCell : CellRow :=
  ⟨"c1", "l1", 0, 0, 1, 1, "web", none, none, some "about:blank", none, none, emptyObject, none, "cover",
    .obj [("ptz_enabled", .bool true)]⟩

def touchDb : Db := ⟨[mainLayout], [touchCell], [], [], []⟩

theorem inputs_lost :
    ∃ clone db', cloneLayout sampleUuid touchDb "l1" = some (clone, db') ∧
    ¬ Cloned touchDb mainLayout clone db' := by
  refine ⟨_, _, rfl, fun h => ?_⟩
  have hcells : List.Forall₂ SameCell [rowToLayoutCell touchCell]
    [cloned touchDb (sampleUuid 0) (sampleUuid 1) (rowToLayoutCell touchCell)] := h.cells
  cases hcells with
  | cons hsame _ =>
    have hinputs : emptyObject = .obj [("ptz_enabled", .bool true)] :=
      congrArg LayoutCell.input_options_json hsame
    cases hinputs

end Writes

end CloneLayout
