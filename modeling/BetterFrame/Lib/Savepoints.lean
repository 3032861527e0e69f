import Mathlib.Data.List.Basic

/-!
# Transactions with savepoints

A PostgreSQL connection as its statements see it. Savepoints form a stack, of which a name means the
latest of that name; `RELEASE` and `ROLLBACK TO` drop the ones set after it, and the latter keeps
the savepoint itself. A statement that is refused aborts the transaction: all further ones are
refused until a rollback, and a `COMMIT` rolls back.
-/

namespace Savepoints

/-- A statement of a transaction. -/
inductive Statement (W : Type) where
  | begin
  | set
  | write (w : W)
  /-- A write that the database refuses. -/
  | refused (w : W)
  | savepoint (name : String)
  | release (name : String)
  | rollbackTo (name : String)
  | commit
  | rollback
deriving DecidableEq

/-- A savepoint, and the writes there were before it. -/
structure Savepoint (W : Type) where
  name : String
  writes : List W
deriving DecidableEq

/-- The writes of the transaction that is open, and its savepoints, innermost first. -/
structure Session (W : Type) where
  writes : List W
  savepoints : List (Savepoint W)
  aborted : Bool
deriving DecidableEq

/-- `defers` says that a deferred constraint refuses the next commit. -/
structure Database (W : Type) where
  visible : List W
  session : Option (Session W)
  defers : Bool
deriving DecidableEq

variable {W : Type}

/-- The latest savepoint of a name, and those set before it. -/
def latest (name : String) : List (Savepoint W) → Option (Savepoint W × List (Savepoint W))
  | [] => none
  | s :: before => if s.name = name then some (s, before) else latest name before

/-- A statement in a transaction: what comes of it, and whether it was accepted. -/
def Session.exec (statement : Statement W) (s : Session W) : Session W × Bool :=
  match statement with
  | .rollbackTo name =>
    match latest name s.savepoints with
    | some (p, before) => (⟨p.writes, p :: before, false⟩, true)
    | none => ({ s with aborted := true }, false)
  | .begin => (s, !s.aborted)
  | statement =>
    if s.aborted then (s, false)
    else
      match statement with
      | .write w => ({ s with writes := s.writes ++ [w] }, true)
      | .refused _ => ({ s with aborted := true }, false)
      | .savepoint name => ({ s with savepoints := ⟨name, s.writes⟩ :: s.savepoints }, true)
      | .release name =>
        match latest name s.savepoints with
        | some (_, before) => ({ s with savepoints := before }, true)
        | none => ({ s with aborted := true }, false)
      | _ => (s, true)

/-- A statement on a connection: what comes of it, and whether it was accepted. -/
def Database.exec (statement : Statement W) (db : Database W) : Database W × Bool :=
  match db.session, statement with
  | none, .begin => ({ db with session := some ⟨[], [], false⟩ }, true)
  | none, .write w => ({ db with visible := db.visible ++ [w] }, true)
  | none, .set | none, .commit | none, .rollback => (db, true)
  | none, _ => (db, false)
  | some s, .commit =>
    if s.aborted then ({ db with session := none }, true)
    else if db.defers then ({ db with session := none }, false)
    else ({ db with visible := db.visible ++ s.writes, session := none }, true)
  | some _, .rollback => ({ db with session := none }, true)
  | some s, statement =>
    let (s, ok) := s.exec statement
    ({ db with session := some s }, ok)

variable {db : Database W} {s : Session W} {name : String} {p : Savepoint W}
  {above below : List (Savepoint W)}

attribute [local simp] Session.exec Database.exec

/-- Savepoints of other names that were set later do not matter. -/
theorem latest_above (hp : p.name = name) : ∀ {above : List (Savepoint W)}, (∀ q ∈ above, q.name ≠ name) →
    latest name (above ++ p :: below) = some (p, below)
  | [], _ => by simp [latest, hp]
  | q :: above, h => by
    have hrest : ∀ r ∈ above, r.name ≠ name := fun r hr => h r (List.mem_cons_of_mem _ hr)
    simp [latest, h q (List.mem_cons_self ..), latest_above hp hrest]

theorem exec_begin (h : db.session = none) :
    db.exec .begin = ({ db with session := some ⟨[], [], false⟩ }, true) := by
  simp [h]

theorem exec_set (h : db.session = some s) (hs : s.aborted = false) : db.exec .set = (db, true) := by
  obtain ⟨visible, session, defers⟩ := db
  cases h
  simp [hs]

theorem exec_write (h : db.session = some s) (hs : s.aborted = false) (w : W) :
    db.exec (.write w) = ({ db with session := some { s with writes := s.writes ++ [w] } }, true) := by
  simp [h, hs]

theorem exec_refused (h : db.session = some s) (hs : s.aborted = false) (w : W) :
    db.exec (.refused w) = ({ db with session := some { s with aborted := true } }, false) := by
  simp [h, hs]

theorem exec_savepoint (h : db.session = some s) (hs : s.aborted = false) :
    db.exec (.savepoint name) =
      ({ db with session := some { s with savepoints := ⟨name, s.writes⟩ :: s.savepoints } }, true) := by
  simp [h, hs]

theorem exec_release (h : db.session = some s) (hs : s.aborted = false)
    (hstack : s.savepoints = above ++ p :: below)
    (hp : p.name = name) (habove : ∀ q ∈ above, q.name ≠ name) :
    db.exec (.release name) = ({ db with session := some { s with savepoints := below } }, true) := by
  simp [h, hs, hstack, latest_above hp habove]

/-- A rollback to a savepoint brings back the writes it was set with, also in a transaction that was
aborted. -/
theorem exec_rollbackTo (h : db.session = some s) (hstack : s.savepoints = above ++ p :: below)
    (hp : p.name = name) (habove : ∀ q ∈ above, q.name ≠ name) :
    db.exec (.rollbackTo name) = ({ db with session := some ⟨p.writes, p :: below, false⟩ }, true) := by
  simp [h, hstack, latest_above hp habove]

theorem exec_commit (h : db.session = some s) (hs : s.aborted = false) (hdefers : db.defers = false) :
    db.exec .commit = ({ db with visible := db.visible ++ s.writes, session := none }, true) := by
  simp [h, hs, hdefers]

theorem exec_commit_deferred (h : db.session = some s) (hs : s.aborted = false) (hdefers : db.defers = true) :
    db.exec .commit = ({ db with session := none }, false) := by
  simp [h, hs, hdefers]

theorem exec_rollback : db.exec .rollback = ({ db with session := none }, true) := by
  obtain ⟨visible, session, defers⟩ := db
  cases session <;> rfl

end Savepoints
