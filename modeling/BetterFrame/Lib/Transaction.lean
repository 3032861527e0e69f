import Mathlib.Data.List.Basic

/-!
# Transactions

A transaction runs statements on a copy of a database. A statement may be refused by the database, the
body may throw between two statements, and the connection may break at any statement or at the commit
(`budget` says how many statements get through); in each case the transaction leaves the database as
it was. Transactions are taken to be serialised, so a body sees no write but its own.
-/

namespace EStateM

variable {ε σ α β : Type} {x : EStateM ε σ α} {f : α → EStateM ε σ β} {b : β} {s s' : σ}

/-- A sequence that returned went through both of its halves. -/
theorem bind_eq_ok (h : (x >>= f) s = .ok b s') : ∃ a t, x s = .ok a t ∧ f a t = .ok b s' := by
  change EStateM.bind x f s = _ at h
  unfold EStateM.bind at h
  split at h
  · next a t hx => exact ⟨a, t, hx, h⟩
  · cases h

theorem bind_of_ok {a : α} {t : σ} (h : x s = .ok a t) : (x >>= f) s = f a t := by
  change EStateM.bind x f s = _
  rw [EStateM.bind, h]

theorem pure_eq_ok {a c : α} (h : (pure a : EStateM ε σ α) s = .ok c s') : a = c ∧ s = s' :=
  ⟨(Result.ok.inj h).1, (Result.ok.inj h).2⟩

end EStateM

namespace Transaction

variable {δ α β : Type}

/-- The database, and how many operations are left before one fails. -/
structure Session (δ : Type) where
  db : δ
  budget : Option Nat

/-- A program on a connection, which may throw. -/
abbrev Tx (δ : Type) := EStateM String (Session δ)

def disconnected : String := "Connection terminated unexpectedly"

/-- One statement: what it returns and the database after it, or the error it is refused with. -/
def statement (f : δ → Except String (α × δ)) : Tx δ α := fun s =>
  if s.budget = some 0 then .error disconnected s
  else
    match f s.db with
    | .ok (a, db) => .ok a ⟨db, s.budget.map Nat.pred⟩
    | .error e => .error e s

/-- A statement that reads. -/
def query (f : δ → α) : Tx δ α := statement fun db => .ok (f db, db)

/-- A statement that writes, unless the database refuses it. -/
def exec (f : δ → Except String δ) : Tx δ Unit := statement fun db => (f db).map fun db => ((), db)

/-- Runs `x` and commits: what the caller gets, and the database after it. -/
def transact (x : Tx δ α) (budget : Option Nat) (db : δ) : Except String α × δ :=
  match x ⟨db, budget⟩ with
  | .ok a s => if s.budget = some 0 then (.error disconnected, db) else (.ok a, s.db)
  | .error e _ => (.error e, db)

variable {s s' : Session δ} {x : Tx δ α} {budget : Option Nat} {db db' : δ} {a : α} {e : String}

theorem statement_ok {f : δ → Except String (α × δ)} (h : statement f s = .ok a s') :
    f s.db = .ok (a, s'.db) := by
  unfold statement at h
  split at h
  · cases h
  · split at h
    · next hf =>
      obtain ⟨rfl, rfl⟩ := EStateM.Result.ok.inj h
      exact hf
    · cases h

theorem query_ok {f : δ → α} (h : query f s = .ok a s') : a = f s.db ∧ s'.db = s.db := by
  obtain ⟨ha, hdb⟩ := Prod.mk.inj (Except.ok.inj (statement_ok h))
  exact ⟨ha.symm, hdb.symm⟩

theorem exec_ok {f : δ → Except String δ} {u : Unit} (h : exec f s = .ok u s') : f s.db = .ok s'.db := by
  have hf := statement_ok h
  rcases hfs : f s.db with e | db
  · simp [hfs, Except.map] at hf
  · simpa [hfs, Except.map] using hf

/-- Without a break of the connection a reading statement returns. -/
theorem query_connected {f : δ → α} : query f ⟨db, none⟩ = .ok (f db) ⟨db, none⟩ := rfl

/-- A transaction that throws has changed nothing. -/
theorem transact_error (h : transact x budget db = (.error e, db')) : db' = db := by
  unfold transact at h
  split at h
  · split at h <;> cases h
    rfl
  · cases h
    rfl

theorem transact_ok (h : transact x budget db = (.ok a, db')) : ∃ b, x ⟨db, budget⟩ = .ok a ⟨db', b⟩ := by
  unfold transact at h
  split at h
  · next s hx =>
    split at h
    · cases h
    · cases h
      exact ⟨s.budget, hx⟩
  · cases h

end Transaction
