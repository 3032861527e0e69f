import BetterFrame.Lib.Savepoints

/-!
# Nested transactions

`PgAdapter.transaction` and `afterCommit` for a tree of sequentially nested transactions.
`nested_agree` says that the writes which become visible and the callbacks which run are those of
the scopes that completed within scopes that completed.
-/

namespace NestedTransactions

open Savepoints

/-- The transaction of an async context. -/
structure Transaction (C : Type) where
  depth : Nat
  callbacks : List C
deriving DecidableEq

/-- What the database and the callbacks see. -/
inductive Event (W C : Type) where
  | query (statement : Statement W)
  | called (callback : C)
deriving DecidableEq

/-- The database, the transaction that is open, and what has happened. -/
structure World (W C : Type) where
  db : Database W
  transaction : Option (Transaction C)
  log : List (Event W C)
deriving DecidableEq

/-- An async function: whether it resolves. -/
abbrev Fn (W C : Type) := World W C → World W C × Bool

variable {W C : Type}

/-- One statement, which may fail. -/
def query (statement : Statement W) : Fn W C := fun w =>
  ({ w with db := (w.db.exec statement).1, log := w.log ++ [.query statement] }, (w.db.exec statement).2)

/-- `await f(); await g();` -/
def andThen (f g : Fn W C) : Fn W C := fun w =>
  match f w with
  | (w, true) => g w
  | (w, false) => (w, false)

def savepointName (depth : Nat) : String := "sp_" ++ toString depth

namespace World

def callbacks (w : World W C) : List C := (w.transaction.map Transaction.callbacks).getD []

def enter (w : World W C) : World W C :=
  { w with transaction := w.transaction.map fun t => { t with depth := t.depth + 1 } }

def leave (w : World W C) : World W C :=
  { w with transaction := w.transaction.map fun t => { t with depth := t.depth - 1 } }

/-- `current.transaction.callbacks.length = callbackCount` -/
def truncate (callbackCount : Nat) (w : World W C) : World W C :=
  { w with transaction := w.transaction.map fun t => { t with callbacks := t.callbacks.take callbackCount } }

end World

/-- `transaction(fn)`: a savepoint inside an open transaction, or a transaction of its own. -/
def transaction (fn : Fn W C) : Fn W C := fun w =>
  match w.transaction with
  | some current =>
    let callbackCount := current.callbacks.length
    let name := savepointName (current.depth + 1)
    match query (.savepoint name) w.enter with
    | (w, false) => (w, false)
    | (w, true) =>
      match andThen fn (query (.release name)) w with
      | (w, true) => (w.leave, true)
      | (w, false) => ((query (.rollbackTo name) (w.truncate callbackCount)).1.leave, false)
  | none =>
    let body := andThen (query .begin) (andThen (query .set)
      (andThen (fun w => fn { w with transaction := some ⟨1, []⟩ }) (query .commit)))
    match body w with
    | (w, true) => ({ w with transaction := none, log := w.log ++ w.callbacks.map .called }, true)
    | (w, false) => ({ (query .rollback w).1 with transaction := none }, false)

/-- Outside a transaction a callback runs at once. -/
def afterCommit (callback : C) (w : World W C) : World W C :=
  match w.transaction with
  | some t => { w with transaction := some { t with callbacks := t.callbacks ++ [callback] } }
  | none => { w with log := w.log ++ [.called callback] }

/-- The body of a transaction. After a nested one it goes on as `returned`, or as `caught` if that
one threw; a body that does not catch the error throws there. -/
inductive Body (W C : Type) where
  | done
  | throws
  /-- A write that the database refuses, and whose error the body does not catch. -/
  | refused (w : W)
  | write (w : W) (rest : Body W C)
  | afterCommit (callback : C) (rest : Body W C)
  | transaction (inner returned caught : Body W C)
deriving DecidableEq

/-- The body as the repository's functions run it. -/
def run : Body W C → Fn W C
  | .done, w => (w, true)
  | .throws, w => (w, false)
  | .refused x, w => ((query (.refused x) w).1, false)
  | .write x rest, w => andThen (query (.write x)) (run rest) w
  | .afterCommit callback rest, w => run rest (afterCommit callback w)
  | .transaction inner returned caught, w =>
    match transaction (run inner) w with
    | (w, true) => run returned w
    | (w, false) => run caught w

/-- The body of a repository's method, or of one that calls several: after each write to a table
comes `this.notify`, which registers the delivery `notify w`. -/
inductive Notifies (notify : W → C) : Body W C → Prop where
  | done : Notifies notify .done
  | throws : Notifies notify .throws
  | refused (w : W) : Notifies notify (.refused w)
  | change (w : W) {rest : Body W C} (h : Notifies notify rest) : Notifies notify
    (.write w (.afterCommit (notify w) rest))
  | transaction {inner returned caught : Body W C} (hinner : Notifies notify inner)
    (hreturned : Notifies notify returned)
      (hcaught : Notifies notify caught) : Notifies notify (.transaction inner returned caught)

/-! ### Scopes -/

/-- What a body does that can be undone. -/
inductive Effect (W C : Type) where
  | write (w : W)
  | callback (c : C)
deriving DecidableEq

/-- Whether the body completes normally. -/
def completes : Body W C → Bool
  | .done => true
  | .throws | .refused _ => false
  | .write _ rest | .afterCommit _ rest => completes rest
  | .transaction inner returned caught => if completes inner then completes returned else completes caught

/-- Within a scope that completed or not. -/
def within (completed : Bool) (effects : List (Effect W C × List Bool)) : List (Effect W C × List Bool) :=
  effects.map fun e => (e.1, completed :: e.2)

/-- What a body issues, in order: each with the scopes around it, whether they completed, the
outermost first. -/
def issued : Body W C → List (Effect W C × List Bool)
  | .done | .throws | .refused _ => []
  | .write w rest => (.write w, []) :: issued rest
  | .afterCommit c rest => (.callback c, []) :: issued rest
  | .transaction inner returned caught =>
    within (completes inner) (issued inner) ++ if completes inner then issued returned else issued caught

/-- The effects of which all scopes completed. -/
def survivors (effects : List (Effect W C × List Bool)) : List (Effect W C) :=
  (effects.filter fun e => e.2.all id).map Prod.fst

def writes (effects : List (Effect W C)) : List W :=
  effects.filterMap fun
    | .write w => some w
    | .callback _ => none

def callbacks (effects : List (Effect W C)) : List C :=
  effects.filterMap fun
    | .write _ => none
    | .callback c => some c

section Survivors

variable {e e' : List (Effect W C × List Bool)} {a b : List (Effect W C)}

@[simp] theorem survivors_nil : survivors ([] : List (Effect W C × List Bool)) = [] := rfl

@[simp] theorem survivors_append : survivors (e ++ e') = survivors e ++ survivors e' := by
  simp [survivors]

@[simp] theorem survivors_within (completed : Bool) :
    survivors (within completed e) = if completed then survivors e else [] := by
  cases completed <;> simp [survivors, within, List.filter_map, Function.comp_def]

@[simp] theorem survivors_cons (x : Effect W C) : survivors ((x, []) :: e) = x :: survivors e := rfl

@[simp] theorem writes_append : writes (a ++ b) = writes a ++ writes b := List.filterMap_append ..

@[simp] theorem callbacks_append : callbacks (a ++ b) = callbacks a ++ callbacks b := List.filterMap_append ..

@[simp] theorem writes_write (w : W) : writes (.write w :: a) = w :: writes a := rfl
@[simp] theorem writes_callback (c : C) : writes (.callback c :: a) = writes a := rfl
@[simp] theorem callbacks_write (w : W) : callbacks (.write w :: a) = callbacks a := rfl
@[simp] theorem callbacks_callback (c : C) : callbacks (.callback c :: a) = c :: callbacks a := rfl

/-- Of a repository's changes those are delivered that are kept. -/
theorem Notifies.deliveries {notify : W → C} {b : Body W C} (h : Notifies notify b) :
    callbacks (survivors (issued b)) = (writes (survivors (issued b))).map notify := by
  induction h with
  | done => rfl
  | throws => rfl
  | refused _ => rfl
  | change w _ ih => simp [issued, ih]
  | transaction _ _ _ hinner hreturned hcaught =>
    simp only [issued, survivors_append, survivors_within, callbacks_append, writes_append, List.map_append]
    split
    · rw [hinner, hreturned]
    · rw [hcaught]
      rfl

end Survivors

/-! ### Inside a transaction -/

theorem savepointName_inj {m n : Nat} (h : savepointName m = savepointName n) : m = n := by
  have hdigits : Nat.toDigits 10 m = Nat.toDigits 10 n := by
    have hlist := congrArg String.toList h
    simpa [savepointName, String.toList_append, Nat.toString_eq_ofList_toDigits] using hlist
  have := congrArg (fun l => Nat.ofDigitChars 10 l 0) hdigits
  simpa only [Nat.ofDigitChars_ten_toDigits] using this

/-- The transaction `t` is open, and the database is in the session `s`. -/
structure Inside (w : World W C) (t : Transaction C) (s : Session W) : Prop where
  transaction : w.transaction = some t
  session : w.db.session = some s

/-- What holds of a world reached inside a transaction, whether or not a body threw on the way. -/
structure Within (w : World W C) (t : Transaction C) (s : Session W) (w' : World W C)
    (t' : Transaction C) (s' : Session W) :
    Prop where
  inside : Inside w' t' s'
  depth : t'.depth = t.depth
  savepoints : ∃ above, s'.savepoints = above ++ s.savepoints ∧ ∀ p ∈ above, ∃ k, t.depth < k ∧
    p.name = savepointName k
  callbacks : ∃ more, t'.callbacks = t.callbacks ++ more
  visible : w'.db.visible = w.db.visible
  defers : w'.db.defers = w.db.defers
  log : ∃ statements : List (Statement W), w'.log = w.log ++ statements.map .query

/-- The transaction can go on, with these effects added. -/
structure Kept (effects : List (Effect W C)) (t : Transaction C) (s : Session W) (t' : Transaction C)
    (s' : Session W) : Prop where
  running : s'.aborted = false
  writes : s'.writes = s.writes ++ writes effects
  callbacks : t'.callbacks = t.callbacks ++ callbacks effects

/-- Inside a transaction the function resolves or throws as `completed` says, and adds the effects
if it resolves. -/
def Runs (fn : Fn W C) (completed : Bool) (effects : List (Effect W C)) : Prop :=
  ∀ w t s, Inside w t s → s.aborted = false →
    ∃ t' s', Within w t s (fn w).1 t' s' ∧ (fn w).2 = completed ∧ (completed = true → Kept effects t s t' s')

section Rules

variable {w w' w₂ : World W C} {t t' t₂ : Transaction C} {s s' s₂ : Session W}
  {e e' : List (Effect W C)} {f g fn : Fn W C}
  {completed : Bool}

theorem Within.refl (h : Inside w t s) : Within w t s w t s :=
  ⟨h, rfl, ⟨[], rfl, by simp⟩, ⟨[], by simp⟩, rfl, rfl, ⟨[], by simp⟩⟩

theorem Within.trans (h : Within w t s w' t' s') (h' : Within w' t' s' w₂ t₂ s₂) : Within w t s w₂ t₂ s₂ := by
  obtain ⟨above, habove, hnames⟩ := h.savepoints
  obtain ⟨above', habove', hnames'⟩ := h'.savepoints
  obtain ⟨more, hmore⟩ := h.callbacks
  obtain ⟨more', hmore'⟩ := h'.callbacks
  obtain ⟨l, hl⟩ := h.log
  obtain ⟨l', hl'⟩ := h'.log
  refine ⟨h'.inside, h'.depth.trans h.depth, ⟨above' ++ above, ?_, ?_⟩, ⟨more ++ more', ?_⟩,
    h'.visible.trans h.visible, h'.defers.trans h.defers, ⟨l ++ l', ?_⟩⟩
  · rw [habove', habove, List.append_assoc]
  · intro p hp
    rcases List.mem_append.mp hp with hp | hp
    · obtain ⟨k, hk, hname⟩ := hnames' p hp
      exact ⟨k, h.depth ▸ hk, hname⟩
    · exact hnames p hp
  · rw [hmore', hmore, List.append_assoc]
  · rw [hl', hl, List.map_append, List.append_assoc]

theorem Kept.trans (h : Kept e t s t' s') (h' : Kept e' t' s' t₂ s₂) : Kept (e ++ e') t s t₂ s₂ :=
  ⟨h'.running, by rw [h'.writes, h.writes, writes_append, List.append_assoc],
    by rw [h'.callbacks, h.callbacks, callbacks_append, List.append_assoc]⟩

/-- A statement that leaves the savepoints alone. -/
theorem within_query {statement : Statement W} (h : Inside w t s)
    (hexec : (w.db.exec statement).1 = { w.db with session := some s' })
    (hsavepoints : s'.savepoints = s.savepoints) :
    Within w t s (query statement w).1 t s' := by
  refine ⟨⟨h.transaction, ?_⟩, rfl, ⟨[], hsavepoints, by simp⟩, ⟨[], by simp⟩, ?_, ?_, ⟨[statement], rfl⟩⟩
  all_goals simp [query, hexec]

theorem query_eq {statement : Statement W} {db : Database W} {ok : Bool}
    (h : w.db.exec statement = (db, ok)) :
    query statement w = ({ w with db := db, log := w.log ++ [.query statement] }, ok) := by
  simp [query, h]

theorem andThen_true (h : (f w).2 = true) : andThen f g w = g (f w).1 := by
  unfold andThen
  rw [← Prod.eta (f w), h]

theorem andThen_false (h : (f w).2 = false) : andThen f g w = ((f w).1, false) := by
  unfold andThen
  rw [← Prod.eta (f w), h]

theorem runs_write (x : W) : Runs (C := C) (query (.write x)) true [.write x] := by
  intro w t s h hs
  have hexec := exec_write h.session hs x
  refine ⟨t, _, within_query h (congrArg Prod.fst hexec) rfl, congrArg Prod.snd hexec,
    fun _ => ⟨hs, rfl, by simp [callbacks]⟩⟩

theorem runs_refused (x : W) : Runs (C := C) (fun w => ((query (.refused x) w).1, false)) false e := by
  intro w t s h hs
  have hexec := exec_refused h.session hs x
  exact ⟨t, _, within_query h (congrArg Prod.fst hexec) rfl, rfl, fun h => by cases h⟩

theorem Runs.andThen (hf : Runs f true e) (hg : Runs g completed e') :
    Runs (andThen f g) completed (e ++ e') := by
  intro w t s h hs
  obtain ⟨t', s', hwithin, htrue, hkept⟩ := hf w t s h hs
  have hkept := hkept rfl
  obtain ⟨t₂, s₂, hwithin', hcompleted, hkept'⟩ := hg _ t' s' hwithin.inside hkept.running
  rw [andThen_true htrue]
  exact ⟨t₂, s₂, hwithin.trans hwithin', hcompleted, fun hc => hkept.trans (hkept' hc)⟩

/-- The savepoints set since have other names. -/
theorem above_names {above : List (Savepoint W)} {depth : Nat}
    (h : ∀ p ∈ above, ∃ k, depth < k ∧ p.name = savepointName k) :
    ∀ p ∈ above, p.name ≠ savepointName depth := by
  intro p hp heq
  obtain ⟨k, hk, hname⟩ := h p hp
  have := savepointName_inj (hname.symm.trans heq)
  omega

/-- A nested transaction adds the effects of its function if that resolves, and none if it throws;
the transaction around it can go on. -/
theorem transaction_inside (hfn : Runs fn completed e) (h : Inside w t s) (hs : s.aborted = false) :
    ∃ t' s', Within w t s (transaction fn w).1 t' s' ∧ (transaction fn w).2 = completed ∧
      Kept (if completed then e else []) t s t' s' := by
  set name := savepointName (t.depth + 1) with hname
  set w₁ := (query (.savepoint name) w.enter).1 with hw₁
  have hsavepoint := @exec_savepoint _ w.enter.db _ name h.session hs
  have hset : query (.savepoint name) w.enter = (w₁, true) := Prod.ext rfl (by rw [query_eq hsavepoint])
  have h₁ : Inside w₁ { t with depth := t.depth + 1 } { s with savepoints := ⟨name, s.writes⟩ ::
        s.savepoints } :=
    ⟨by simp [w₁, query, World.enter, h.transaction], by rw [hw₁, query, hsavepoint]⟩
  have hlog₁ : w₁.log = w.log ++ [.query (.savepoint name)] := rfl
  have hvisible₁ : w₁.db.visible = w.db.visible := by rw [hw₁, query, hsavepoint]; rfl
  have hdefers₁ : w₁.db.defers = w.db.defers := by rw [hw₁, query, hsavepoint]; rfl
  obtain ⟨t₂, s₂, h₂, hcompleted, hkept⟩ := hfn w₁ _ _ h₁ hs
  obtain ⟨above, hstack, habove⟩ := h₂.savepoints
  obtain ⟨more, hmore⟩ := h₂.callbacks
  obtain ⟨l, hlog₂⟩ := h₂.log
  simp only at hstack hmore habove
  unfold transaction
  simp only [h.transaction, ← hname, hset]
  cases completed with
  | true =>
    have hkept := hkept rfl
    have hrelease := @exec_release _ _ _ name _ _ _ h₂.inside.session hkept.running hstack rfl
      (above_names habove)
    rw [andThen_true hcompleted]
    rw [query_eq hrelease]
    refine ⟨{ t₂ with depth := t₂.depth - 1 }, { s₂ with savepoints := s.savepoints },
      ⟨⟨?_, ?_⟩, ?_, ⟨[], rfl, by simp⟩,
      ⟨more, hmore⟩, ?_, ?_, ?_⟩, rfl, hkept.running, hkept.writes, hkept.callbacks⟩
    · simp [World.leave, h₂.inside.transaction]
    · simp [World.leave]
    · simp [h₂.depth]
    · simp [World.leave, h₂.visible, hvisible₁]
    · simp [World.leave, h₂.defers, hdefers₁]
    · exact ⟨[.savepoint name] ++ l ++ [.release name], by simp [World.leave, hlog₂, hlog₁]⟩
  | false =>
    have hrollback := @exec_rollbackTo _ _ _ name _ _ _ h₂.inside.session hstack rfl (above_names habove)
    rw [andThen_false hcompleted]
    refine ⟨{ t₂ with callbacks := t.callbacks, depth := t₂.depth - 1 },
      ⟨s.writes, ⟨name, s.writes⟩ :: s.savepoints, false⟩,
      ⟨⟨?_, ?_⟩, ?_, ⟨[⟨name, s.writes⟩], rfl, ?_⟩, ⟨[], by simp⟩, ?_, ?_, ?_⟩, rfl, rfl, by
        simp [writes], by simp [callbacks]⟩
    · simp [World.leave, World.truncate, query, h₂.inside.transaction, hmore]
    · simp [World.leave, World.truncate, query, hrollback]
    · simp [h₂.depth]
    · intro p hp
      rw [List.mem_singleton.mp hp]
      exact ⟨t.depth + 1, by omega, rfl⟩
    · simp [World.leave, World.truncate, query, hrollback, h₂.visible, hvisible₁]
    · simp [World.leave, World.truncate, query, hrollback, h₂.defers, hdefers₁]
    · exact ⟨[.savepoint name] ++ l ++
        [.rollbackTo name], by simp [World.leave, World.truncate, query, hlog₂, hlog₁]⟩

end Rules

/-- A body inside a transaction. -/
theorem runs_body : ∀ b : Body W C, Runs (run b) (completes b) (survivors (issued b))
  | .done =>
    fun w t s h hs => ⟨t, s, Within.refl h, rfl,
      fun _ => ⟨hs, by simp [writes, issued], by simp [callbacks, issued]⟩⟩
  | .throws => fun w t s h hs => ⟨t, s, Within.refl h, rfl, fun hc => by cases hc⟩
  | .refused x => runs_refused x
  | .write x rest => (runs_write x).andThen (runs_body rest)
  | .afterCommit c rest => by
    intro w t s h hs
    have hpush : afterCommit c w =
        { w with transaction := some { t with callbacks := t.callbacks ++ [c] } } := by
      simp [afterCommit, h.transaction]
    have hinside : Inside (afterCommit c w) { t with callbacks := t.callbacks ++ [c] } s := by
      rw [hpush]
      exact ⟨rfl, h.session⟩
    have hfirst : Within w t s (afterCommit c w) { t with callbacks := t.callbacks ++ [c] } s := by
      refine ⟨hinside, rfl, ⟨[], rfl, by simp⟩, ⟨[c], rfl⟩, ?_, ?_, ⟨[], ?_⟩⟩ <;> simp [hpush]
    obtain ⟨t', s', hwithin, hcompleted, hkept⟩ := runs_body rest _ _ _ hinside hs
    refine ⟨t', s', hfirst.trans hwithin, hcompleted, fun hc => ?_⟩
    obtain ⟨hrunning, hwrites, hcallbacks⟩ := hkept hc
    exact ⟨hrunning, hwrites, by simpa [issued] using hcallbacks⟩
  | .transaction inner returned caught => by
    intro w t s h hs
    obtain ⟨t', s', hwithin, hcompleted, hkept⟩ := transaction_inside (runs_body inner) h hs
    rw [issued, survivors_append, survivors_within, run, ← Prod.eta (transaction (run inner) w), hcompleted]
    cases hinner : completes inner with
    | true =>
      obtain ⟨t₂, s₂, hwithin', hcompleted', hkept'⟩ := runs_body returned _ _ _ hwithin.inside hkept.running
      rw [hinner] at hkept
      exact ⟨t₂, s₂, hwithin.trans hwithin', by simpa [completes, hinner] using hcompleted', fun hc =>
        hkept.trans (hkept' (by simpa [completes, hinner] using hc))⟩
    | false =>
      obtain ⟨t₂, s₂, hwithin', hcompleted', hkept'⟩ := runs_body caught _ _ _ hwithin.inside hkept.running
      rw [hinner] at hkept
      exact ⟨t₂, s₂, hwithin.trans hwithin', by simpa [completes, hinner] using hcompleted', fun hc =>
        hkept.trans (hkept' (by simpa [completes, hinner] using hc))⟩

/-! ### The outermost transaction -/

/-- What an outermost call leaves: the effects of the scopes that completed are visible, their
callbacks were called after the `COMMIT`, and a call that throws leaves nothing. -/
structure Agrees (b : Body W C) (w w' : World W C) (ok : Bool) : Prop where
  returned : ok = (completes b && !w.db.defers)
  visible : w'.db.visible = w.db.visible ++ writes (survivors (within ok (issued b)))
  called : ∃ statements : List (Statement W), w'.log = w.log ++ statements.map .query ++
    if ok then .query .commit :: (callbacks (survivors (within ok (issued b)))).map .called else []
  idle : w'.transaction = none ∧ w'.db.session = none

theorem nested_agree (b : Body W C) (w : World W C) (htransaction : w.transaction = none)
    (hsession : w.db.session = none) :
    Agrees b w (transaction (run b) w).1 (transaction (run b) w).2 := by
  obtain ⟨db, _, log⟩ := w
  cases htransaction
  simp only at hsession
  set db₁ : Database W := { db with session := some ⟨[], [], false⟩ } with hdb₁
  set w₁ : World W C := ⟨db₁, some ⟨1, []⟩, log ++ [.query .begin] ++ [.query .set]⟩ with hw₁
  have hbegin : query .begin ⟨db, none, log⟩ = ((⟨db₁, none, log ++ [.query .begin]⟩ : World W C), true) :=
    query_eq (exec_begin hsession)
  have hset : query .set ⟨db₁, none, log ++ [.query .begin]⟩ =
      ((⟨db₁, none, log ++ [.query .begin] ++ [.query .set]⟩ : World W C), true) :=
        query_eq (exec_set rfl rfl)
  have hinside : Inside w₁ ⟨1, []⟩ ⟨[], [], false⟩ := ⟨rfl, rfl⟩
  obtain ⟨t, s, hwithin, hcompleted, hkept⟩ := runs_body b w₁ _ _ hinside rfl
  obtain ⟨l, hl⟩ := hwithin.log
  have hlog : (run b w₁).1.log = log ++ [.query .begin] ++ [.query .set] ++ l.map .query := hl
  have hvisible : (run b w₁).1.db.visible = db.visible := hwithin.visible
  have hdefers : (run b w₁).1.db.defers = db.defers := hwithin.defers
  have hbody : andThen (query .begin)
    (andThen (query .set) (andThen (fun w => run b { w with transaction := some ⟨1, []⟩ })
      (query .commit))) ⟨db, none, log⟩ = andThen (run b) (query .commit) w₁ := by
    simp only [andThen, hbegin, hset, hw₁]
  unfold transaction
  simp only [hbody]
  cases hb : completes b with
  | false =>
    rw [andThen_false (hcompleted.trans hb)]
    simp only [query_eq exec_rollback]
    refine ⟨by simp [hb], by simp [hvisible, writes], ⟨[.begin, .set] ++ l ++
      [.rollback], by simp [hlog]⟩, rfl, rfl⟩
  | true =>
    obtain ⟨hrunning, hwrites, hcallbacks⟩ := hkept hb
    rw [andThen_true (hcompleted.trans hb)]
    cases hd : db.defers with
    | true =>
      rw [query_eq (exec_commit_deferred hwithin.inside.session hrunning (hdefers.trans hd))]
      simp only [query_eq exec_rollback]
      refine ⟨by simp [hb, hd], by simp [hvisible, writes], ⟨[.begin, .set] ++ l ++
        [.commit, .rollback], by simp [hlog]⟩, rfl, rfl⟩
    | false =>
      rw [query_eq (exec_commit hwithin.inside.session hrunning (hdefers.trans hd))]
      refine ⟨by simp [hb, hd], by simp [hvisible, hwrites], ⟨[.begin, .set] ++ l, ?_⟩, rfl, rfl⟩
      simp [hlog, World.callbacks, hwithin.inside.transaction, hcallbacks]

/-- A caught inner transaction: its write and its callback are gone, the ones around it stay. -/
def caughtBody : Body Nat String :=
  .write 1 (.afterCommit "one"
    (.transaction (.write 2 (.afterCommit "two" .throws)) .throws (.write 3 .done)))

theorem nested_agree_caught :
    Agrees caughtBody ⟨⟨[0], none, false⟩, none, []⟩
    (transaction (run caughtBody) ⟨⟨[0], none, false⟩, none, []⟩).1
      (transaction (run caughtBody) ⟨⟨[0], none, false⟩, none, []⟩).2 :=
  nested_agree caughtBody ⟨⟨[0], none, false⟩, none, []⟩ rfl rfl

example : writes (survivors (within true (issued caughtBody))) = [1, 3] := rfl

end NestedTransactions
