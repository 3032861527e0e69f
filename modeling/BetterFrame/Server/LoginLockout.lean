import BetterFrame.Lib.Run
import BetterFrame.Server.Accounts

/-!
# The lockout of an account

`POST /auth/login` of `plugins/service-admin-http/routes-auth.ts` for one user: each request reads
the user's row, checks the password, and writes a patch of what it has read. Between the reading and
the writing other requests take their steps, so a count that was written meanwhile is written over.
-/

namespace LoginLockout

open Machine Accounts

/-- The settings of the lockout. -/
structure AuthConfig where
  loginLockoutThreshold : Nat
  loginLockoutSeconds : Nat
  threshold_pos : 1 ≤ loginLockoutThreshold
  seconds_pos : 1 ≤ loginLockoutSeconds

/-- A request that awaits the check of its password. -/
structure Attempt where
  schema : String
  password : String
  user : User
  since : Nat
deriving DecidableEq

/-- The rows, and the attempts that are under way. -/
structure State where
  db : Db
  clock : Nat
  attempts : List Attempt
  /-- The requests that have recorded a wrong password. -/
  failed : Nat

/-- A login begins or goes on, or time passes. -/
inductive Label where
  | request (schema password : String)
  /-- The `i`-th open attempt learns whether its password is right, reads the clock at `now` and writes. -/
  | verified (i now : Nat)
  | tick (now : Nat)
deriving DecidableEq

/-- `locked_until` lies in the future. -/
def Locked (u : User) (now : Nat) : Prop := ∃ t, u.locked_until = some t ∧ now < t

instance {u : User} {now : Nat} : Decidable (Locked u now) :=
  match h : u.locked_until with
  | none => .isFalse fun ⟨_, ht, _⟩ => nomatch h.symm.trans ht
  | some t =>
    decidable_of_iff (now < t) ⟨fun hlt => ⟨t, h, hlt⟩, fun ⟨_, ht, hlt⟩ =>
      Option.some.inj (h.symm.trans ht) ▸ hlt⟩

/-- From the row to the check of the password, or to the refusal. -/
def request (schema password : String) (s : State) : State :=
  match s.db.users schema with
  | none => s
  | some user =>
    if ¬ user.is_active ∨ Locked user s.clock then s
    else { s with attempts := s.attempts ++ [⟨schema, password, user, s.clock⟩] }

/-- What a wrong password writes. -/
def failurePatch (cfg : AuthConfig) (user : User) (now : Nat) : UserPatch where
  failed_login_count := some (user.failed_login_count + 1)
  locked_until :=
    if cfg.loginLockoutThreshold ≤ user.failed_login_count + 1 then
      some (some (now + cfg.loginLockoutSeconds * 1000)) else none

/-- What the right password writes. -/
def successPatch : UserPatch where
  failed_login_count := some 0
  locked_until := some none

variable (cfg : AuthConfig) (verifyPassword : String → String → Bool)

/-- From the check of the password to the write. -/
def verified (i now : Nat) (a : Attempt) (s : State) : Option State :=
  if verifyPassword a.password a.user.password_hash then
    (updateAuthenticatedUser a.schema a.user successPatch s.db).map fun db =>
      { s with db, attempts := s.attempts.eraseIdx i }
  else
    (updateAuthenticatedUser a.schema a.user (failurePatch cfg a.user now) s.db).map fun db =>
      { s with db, attempts := s.attempts.eraseIdx i, failed := s.failed + 1 }

def step (s : State) : Label → Option State
  | .request schema password => some (request schema password s)
  | .verified i now =>
    match s.attempts[i]? with
    | none => none
    | some a => if a.since ≤ now ∧ now ≤ s.clock then verified cfg verifyPassword i now a s else none
  | .tick now => if s.clock ≤ now then some { s with clock := now } else none

/-! ### Runs of failed attempts -/

/-- A step of the runs in question: the requests are for the user, no password is right, and no lock
runs out. -/
def Failing (home : String) (role : Role) (s : State) : Label → Prop
  | .request schema _ => schema ∈ places s.db home role
  | .verified i now =>
    (∀ a ∈ s.attempts[i]?, verifyPassword a.password a.user.password_hash = false) ∧
      s.clock < now + cfg.loginLockoutSeconds * 1000
  | .tick now =>
    ∀ schema ∈ places s.db home role, ∀ row ∈ s.db.users schema, Locked row s.clock → Locked row now

/-- A write finds the count that its request has read. -/
def Fresh (s : State) : Label → Prop
  | .verified i _ =>
    ∀ a ∈ s.attempts[i]?, ∀ row ∈ s.db.users a.schema, row.failed_login_count = a.user.failed_login_count
  | _ => True

instance {home : String} {role : Role} {s : State} {l : Label} :
    Decidable (Failing cfg verifyPassword home role s l) :=
  match l with
  | .request schema _ => inferInstanceAs (Decidable (schema ∈ places s.db home role))
  | .verified .. => inferInstanceAs (Decidable (_ ∧ _))
  | .tick now => inferInstanceAs (Decidable (∀ schema ∈ places s.db home role, ∀ row ∈ s.db.users schema,
      Locked row s.clock → Locked row now))

instance {s : State} {l : Label} : Decidable (Fresh s l) :=
  match l with
  | .verified i _ => inferInstanceAs (Decidable (∀ a ∈ s.attempts[i]?, ∀ row ∈ s.db.users a.schema,
      row.failed_login_count = a.user.failed_login_count))
  | .request .. | .tick _ => .isTrue trivial

/-- What a run of fresh steps keeps: every row of the user is `v`, which counts the failures and is
locked when they have become too many; the open attempts are for the user. -/
structure Counted (home : String) (u v : User) (s : State) : Prop where
  stored : Stored home v s.db
  id : v.id = u.id
  role : v.role = u.role
  count : v.failed_login_count = u.failed_login_count + s.failed
  locked : 0 < s.failed → cfg.loginLockoutThreshold ≤ v.failed_login_count → Locked v s.clock
  attempts : ∀ a ∈ s.attempts, a.schema ∈ places s.db home u.role ∧ a.user.id = u.id ∧ a.user.role = u.role

section Counted

variable {cfg verifyPassword} {home schema password : String} {u v user : User} {i now : Nat} {a : Attempt}
  {s s' s₀ : State} {l : Label} {ls : List Label}

theorem Counted.request (hc : Counted cfg home u v s) (hplace : schema ∈ places s.db home u.role) :
    Counted cfg home u v (request schema password s) := by
  unfold LoginLockout.request
  rw [hc.stored schema (hc.role ▸ hplace)]
  dsimp only
  split
  · exact hc
  refine ⟨hc.stored, hc.id, hc.role, hc.count, hc.locked, fun a ha => ?_⟩
  rcases List.mem_append.1 ha with ha | ha
  · exact hc.attempts a ha
  · rw [List.mem_singleton.1 ha]
    exact ⟨hplace, hc.id, hc.role⟩

/-- A failed attempt that finds the count it has read adds one to it. -/
theorem Counted.failed (hc : Counted cfg home u v s) (ha : a ∈ s.attempts)
    (hwrong : verifyPassword a.password a.user.password_hash = false)
    (hnow : s.clock < now + cfg.loginLockoutSeconds * 1000)
    (hfresh : ∀ row ∈ s.db.users a.schema, row.failed_login_count = a.user.failed_login_count)
    (h : verified cfg verifyPassword i now a s = some s') :
    Counted cfg home u (v.patched (failurePatch cfg a.user now)) s' := by
  obtain ⟨hplace, hid, hrole⟩ := hc.attempts a ha
  have hcount : v.failed_login_count = a.user.failed_login_count :=
    hfresh v (hc.stored a.schema (hc.role ▸ hplace))
  obtain ⟨db', hdb', hstored, htenants⟩ := hc.stored.update (failurePatch cfg a.user now) (hc.role ▸ hplace)
    (hid.trans hc.id.symm) (hrole.trans hc.role.symm)
  unfold verified at h
  rw [hwrong, hdb'] at h
  obtain rfl := Option.some.inj h
  refine ⟨hstored, hc.id, hc.role, ?_, fun _ hle => ?_, fun b hb => ?_⟩
  · show a.user.failed_login_count + 1 = u.failed_login_count + (s.failed + 1)
    rw [← hcount, hc.count]
    omega
  · have hle : cfg.loginLockoutThreshold ≤ a.user.failed_login_count + 1 := hle
    refine ⟨now + cfg.loginLockoutSeconds * 1000, ?_, hnow⟩
    show (failurePatch cfg a.user now).locked_until.getD v.locked_until = _
    rw [failurePatch, if_pos hle]
    rfl
  · have hplaces : places db' home u.role = places s.db home u.role := by unfold places; rw [htenants]
    show b.schema ∈ places db' home u.role ∧ _
    rw [hplaces]
    exact hc.attempts b (List.mem_of_mem_eraseIdx hb)

theorem Counted.step (hc : Counted cfg home u v s) (hl : Failing cfg verifyPassword home u.role s l)
    (hf : Fresh s l)
    (h : step cfg verifyPassword s l = some s') : ∃ v, Counted cfg home u v s' := by
  cases l with
  | request schema password =>
    obtain rfl := Option.some.inj h
    exact ⟨v, hc.request hl⟩
  | verified i now =>
    unfold LoginLockout.step at h
    dsimp only at h
    rcases ha : s.attempts[i]? with _ | a
    · rw [ha] at h
      cases h
    rw [ha] at h
    dsimp only at h
    split at h
    · exact ⟨_, hc.failed (List.mem_of_getElem? ha) (hl.1 a ha) hl.2 (hf a ha) h⟩
    · cases h
  | tick now =>
    unfold LoginLockout.step at h
    dsimp only at h
    split at h
    · obtain rfl := Option.some.inj h
      refine ⟨v, hc.stored, hc.id, hc.role, hc.count, fun hpos hle => ?_, hc.attempts⟩
      have hplace : ∃ schema, schema ∈ places s.db home u.role := by
        unfold places
        split
        · exact ⟨"public", List.mem_cons_self ..⟩
        · exact ⟨home, List.mem_cons_self ..⟩
      obtain ⟨schema, hmem⟩ := hplace
      exact hl schema hmem v (hc.stored schema (hc.role ▸ hmem)) (hc.locked hpos hle)
    · cases h

theorem Counted.start (h₀ : Stored home u s₀.db) (hattempts : s₀.attempts = []) (hfailed : s₀.failed = 0) :
    Counted cfg home u u s₀ :=
  ⟨h₀, rfl, rfl, by rw [hfailed, Nat.add_zero], fun h => by omega, fun a ha => by
      rw [hattempts] at ha; cases ha⟩

/-- In a run of failed attempts each of which, when it writes, finds the count that it has read, no
failure is lost, and the account is locked when there have been enough of them. -/
theorem locked_of_fresh (h₀ : Stored home u s₀.db) (hattempts : s₀.attempts = []) (hfailed : s₀.failed = 0)
    (ha : Along (step cfg verifyPassword) (fun s l => Failing cfg verifyPassword home u.role s l ∧
      Fresh s l) s₀ ls) (hr : run (step cfg verifyPassword) s₀ ls = some s) :
    ∀ schema ∈ places s.db home u.role, ∃ row, s.db.users schema = some row ∧
      row.failed_login_count = u.failed_login_count + s.failed ∧
      (cfg.loginLockoutThreshold ≤ s.failed → Locked row s.clock) := by
  obtain ⟨v, hc⟩ := ha.inv (I := fun s => ∃ v, Counted cfg home u v s)
    (fun _ _ _ ⟨hl, hf⟩ hstep ⟨_, hc⟩ => hc.step hl hf hstep) hr ⟨u, .start h₀ hattempts hfailed⟩
  intro schema hmem
  refine ⟨v, hc.stored schema (hc.role ▸ hmem), hc.count, fun hle => hc.locked ?_ ?_⟩
  · have := cfg.threshold_pos
    omega
  · have := hc.count
    omega

end Counted

/-! ### The default configuration -/

def defaults : AuthConfig := ⟨8, 900, by decide, by decide⟩

/-- An operator of one tenant. -/
def account : User := ⟨"id", .operator, true, "right", [], 0, none⟩

def quiet : State where
  db := ⟨fun schema => if schema = "tenant_one" then some account else none, ["tenant_one"]⟩
  clock := 0
  attempts := []
  failed := 0

theorem quiet_stored : Stored "tenant_one" account quiet.db := by
  intro schema hmem
  obtain rfl := List.mem_singleton.1 hmem
  rfl

/-- The password check of an account whose hash is the password. -/
def same (password hash : String) : Bool := password = hash

/-- Eight guesses, one after another. -/
def guesses : List Label := (List.replicate 8 [.request "tenant_one" "wrong", .verified 0 0]).flatten

theorem locked_of_fresh_guesses :
    ∃ s, run (step defaults same) quiet guesses = some s ∧ 8 ≤ s.failed ∧
      ∃ row, s.db.users "tenant_one" = some row ∧ row.failed_login_count = 8 ∧ Locked row s.clock := by
  have hgood : Along (step defaults same) (fun s l => Failing defaults same "tenant_one" .operator s l ∧
    Fresh s l) quiet
      guesses := by decide
  have hfailed : (run (step defaults same) quiet guesses).map State.failed = some 8 := by decide
  obtain ⟨s, hr, hfailed⟩ := Option.map_eq_some_iff.1 hfailed
  obtain ⟨row, hrow, hcount, hlocked⟩ :=
    locked_of_fresh quiet_stored rfl rfl hgood hr "tenant_one" (List.mem_singleton.2 rfl)
  refine ⟨s, hr, Nat.le_of_eq hfailed.symm, row, hrow, ?_, hlocked (Nat.le_of_eq hfailed.symm)⟩
  rw [hcount, hfailed]
  rfl

/-- Eight guesses at once. -/
def burst : List Label := List.replicate 8 (.request "tenant_one" "wrong") ++ List.replicate 8 (.verified 0 0)

/-- Each of them reads the count 0 and writes the count 1. -/
theorem unlocked_of_burst :
    Along (step defaults same) (Failing defaults same "tenant_one" .operator) quiet burst ∧
      (run (step defaults same) quiet burst).map (fun s =>
          (s.failed, (s.db.users "tenant_one").map fun row => (row.failed_login_count, row.locked_until))) =
        some (defaults.loginLockoutThreshold, some (1, none)) := by
  constructor
  · decide
  · decide

end LoginLockout
