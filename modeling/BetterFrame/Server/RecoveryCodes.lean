import BetterFrame.Lib.Run
import BetterFrame.Server.Accounts
import Mathlib.Data.List.Nodup
import Mathlib.Data.List.Perm.Basic

/-!
# Recovery codes

`POST /auth/recovery` of `plugins/service-admin-http/routes-auth.ts` for one user, with
`consumeRecoveryCode` and `resolveSession` of `shared/auth.ts`. A request reads its session and the
user, looks for its code among the hashes, writes the other hashes back, and then clears
`totp_pending`; other requests take their steps in between.
-/

namespace RecoveryCodes

open Machine Accounts

/-- A row of `sessions`. -/
structure Session where
  id : String
  schema : String
  user_id : String
  totp_pending : Bool
  expires_at : Nat
  last_seen_at : Nat
  revoked_at : Option Nat
deriving DecidableEq

/-- A request with a code that has read its session and the user. -/
structure Request where
  session : Session
  user : User
  code : String
deriving DecidableEq

/-- The rows, and the requests between two statements. -/
structure State where
  db : Db
  sessions : List Session
  /-- The requests whose code is being checked. -/
  checking : List Request
  /-- The requests that have written the remaining hashes. -/
  written : List Request
  /-- The codes that have promoted a session, with the session. -/
  promoted : List (String × String)

/-- A request with a code begins, learns whether its code is right, or promotes its session. -/
inductive Label where
  /-- A request that passes the checks of its CSRF token and of its rate, at the time `now`. Its
  cookie names the session `sid` of the tenant with the schema `schema`. -/
  | request (schema sid code : String) (now : Nat)
  | checked (i : Nat)
  | promote (i : Nat)
deriving DecidableEq

section Model

variable (verifyPassword : String → String → Bool) (sessionIdleSeconds : Nat)

def consumeLoop (code : String) (consumed : Bool) : List String → Bool × List String
  | [] => (consumed, [])
  | h :: hashedCodes =>
    if !consumed && verifyPassword code h then consumeLoop code true hashedCodes
    else
      let (ok, remaining) := consumeLoop code consumed hashedCodes
      (ok, h :: remaining)

/-- The first matching code is consumed, the others are kept. -/
def consumeRecoveryCode (code : String) (hashedCodes : List String) : Bool × List String :=
  consumeLoop verifyPassword code false hashedCodes

/-- Changes the session of this id in this schema. -/
def updateSession (schema sid : String) (f : Session → Session) (s : State) : State :=
  { s with sessions := s.sessions.map fun x => if x.schema = schema ∧ x.id = sid then f x else x }

def getUserById (schema id : String) (db : Db) : Option User := (db.users schema).filter fun u => u.id = id

/-- The session, if it is in force, and its user. -/
def resolveSession (schema sid : String) (now : Nat) (s : State) : Option (Session × User) × State :=
  match s.sessions.find? fun x => x.schema = schema ∧ x.id = sid with
  | none => (none, s)
  | some session =>
    if session.revoked_at.isSome ∨ session.expires_at ≤ now then (none, s)
    else if session.last_seen_at + sessionIdleSeconds * 1000 < now then
      (none, updateSession schema sid (fun x => { x with revoked_at := some now }) s)
    else
      match getUserById schema session.user_id s.db with
      | none => (none, s)
      | some user =>
        if user.is_active then (some (session, user),
          updateSession schema sid (fun x => { x with last_seen_at := now }) s)
        else (none, s)

/-- A request up to the check of its code. -/
def request (schema sid code : String) (now : Nat) (s : State) : State :=
  let (resolved, s) := resolveSession sessionIdleSeconds schema sid now s
  match resolved with
  | none => s
  | some (session, user) =>
    if session.totp_pending = false ∨ code = "" then s
    else { s with checking := s.checking ++ [⟨session, user, code⟩] }

/-- The check of the code, and the write of the remaining hashes if it is one of the user's. -/
def checked (i : Nat) (q : Request) (s : State) : Option State :=
  let result := consumeRecoveryCode verifyPassword q.code q.user.recovery_codes_hashed
  if result.1 then
    (updateAuthenticatedUser q.session.schema q.user { recovery_codes_hashed := some result.2 } s.db).map
        fun db =>
      { s with db, checking := s.checking.eraseIdx i, written := s.written ++ [q] }
  else some { s with checking := s.checking.eraseIdx i }

/-- `setSessionTotpPending(session.id, false)` -/
def promote (i : Nat) (q : Request) (s : State) : State :=
  { updateSession q.session.schema q.session.id (fun x => { x with totp_pending := false }) s with
    written := s.written.eraseIdx i
    promoted := s.promoted ++ [(q.code, q.session.id)] }

def step (s : State) : Label → Option State
  | .request schema sid code now => some (request sessionIdleSeconds schema sid code now s)
  | .checked i => (s.checking[i]?).bind fun q => checked verifyPassword i q s
  | .promote i => (s.written[i]?).map fun q => promote i q s

end Model

/-! ### One code -/

/-- No code is that of two hashes. -/
def Distinct (verifyPassword : String → String → Bool) (hashedCodes : List String) : Prop :=
  hashedCodes.Pairwise fun h h' => ∀ code, verifyPassword code h = true → verifyPassword code h' = false

section Consume

variable {verifyPassword : String → String → Bool} {code : String} {hashedCodes : List String}

theorem consumeLoop_true : consumeLoop verifyPassword code true hashedCodes = (true, hashedCodes) := by
  induction hashedCodes with
  | nil => rfl
  | cons h hs ih => simp [consumeLoop, ih]

/-- A code that is found is removed once, and every other hash stays. -/
theorem consume_ok (h : (consumeRecoveryCode verifyPassword code hashedCodes).1 = true) :
    ∃ l₁ hash l₂, hashedCodes = l₁ ++ hash :: l₂ ∧ verifyPassword code hash = true ∧
      (∀ x ∈ l₁, verifyPassword code x = false) ∧
      (consumeRecoveryCode verifyPassword code hashedCodes).2 = l₁ ++ l₂ := by
  unfold consumeRecoveryCode at h ⊢
  induction hashedCodes with
  | nil => cases h
  | cons hash hs ih =>
    by_cases hv : verifyPassword code hash = true
    · refine ⟨[], hash, hs, rfl, hv, fun x hx => absurd hx List.not_mem_nil, ?_⟩
      simp [consumeLoop, hv, consumeLoop_true]
    · have hv : verifyPassword code hash = false := by simpa using hv
      have hloop : consumeLoop verifyPassword code false (hash :: hs) =
          ((consumeLoop verifyPassword code false hs).1,
                hash :: (consumeLoop verifyPassword code false hs).2) := by
        simp [consumeLoop, hv]
      rw [hloop] at h ⊢
      obtain ⟨l₁, found, l₂, rfl, hfound, hnot, hrest⟩ := ih h
      refine ⟨hash :: l₁, found, l₂, rfl, hfound, ?_, congrArg _ hrest⟩
      exact List.forall_mem_cons.2 ⟨hv, hnot⟩

theorem consume_ok_iff :
    (consumeRecoveryCode verifyPassword code hashedCodes).1 = true ↔
    ∃ hash ∈ hashedCodes, verifyPassword code hash = true := by
  constructor
  · intro h
    obtain ⟨l₁, hash, l₂, rfl, hv, -, -⟩ := consume_ok h
    exact ⟨hash, by simp, hv⟩
  · rintro ⟨hash, hmem, hv⟩
    unfold consumeRecoveryCode
    induction hashedCodes with
    | nil => cases hmem
    | cons x xs ih =>
      by_cases hx : verifyPassword code x = true
      · simp [consumeLoop, hx, consumeLoop_true]
      · have hne : hash ≠ x := fun he => hx (he ▸ hv)
        have hmem := (List.mem_cons.1 hmem).resolve_left hne
        simpa [consumeLoop, hx] using ih hmem

theorem consume_sublist (h : (consumeRecoveryCode verifyPassword code hashedCodes).1 = true) :
    (consumeRecoveryCode verifyPassword code hashedCodes).2.Sublist hashedCodes := by
  obtain ⟨l₁, hash, l₂, rfl, -, -, hrest⟩ := consume_ok h
  rw [hrest]
  exact List.Sublist.append_left (List.sublist_cons_self ..) _

/-- Among distinct codes, one that is removed does not remain. -/
theorem consume_absent (hd : Distinct verifyPassword hashedCodes)
    (h : (consumeRecoveryCode verifyPassword code hashedCodes).1 = true) :
    ∀ x ∈ (consumeRecoveryCode verifyPassword code hashedCodes).2, verifyPassword code x = false := by
  obtain ⟨l₁, hash, l₂, rfl, hv, hnot, hrest⟩ := consume_ok h
  have hafter := (List.pairwise_cons.1 (List.pairwise_append.1 hd).2.1).1
  rw [hrest]
  intro x hx
  rcases List.mem_append.1 hx with hx | hx
  · exact hnot x hx
  · exact hafter x hx code hv

end Consume

/-! ### Runs -/

/-- The sessions are the user's. -/
def Owned (home : String) (u : User) (s : State) : Prop :=
  ∀ x ∈ s.sessions, x.user_id = u.id ∧ x.schema ∈ places s.db home u.role

/-- A write finds the hashes that its request has read. -/
def Fresh (verifyPassword : String → String → Bool) (s : State) : Label → Prop
  | .checked i =>
    ∀ q ∈ s.checking[i]?, (consumeRecoveryCode verifyPassword q.code q.user.recovery_codes_hashed).1 =
      true →
      ∀ row ∈ s.db.users q.session.schema, row.recovery_codes_hashed = q.user.recovery_codes_hashed
  | _ => True

instance {verifyPassword : String → String → Bool} {s : State} {l : Label} :
    Decidable (Fresh verifyPassword s l) :=
  match l with
  | .checked i => inferInstanceAs (Decidable (∀ q ∈ s.checking[i]?,
      (consumeRecoveryCode verifyPassword q.code q.user.recovery_codes_hashed).1 = true →
        ∀ row ∈ s.db.users q.session.schema, row.recovery_codes_hashed = q.user.recovery_codes_hashed))
  | .request .. | .promote _ => .isTrue trivial

/-- The codes whose hash has been removed. -/
def State.spent (s : State) : List String := s.promoted.map Prod.fst ++ s.written.map Request.code

/-- What a run of fresh steps keeps: every row of the user is `v`, whose codes are distinct and none
of them spent, and no code is spent twice. -/
structure Single (verifyPassword : String → String → Bool) (home : String) (u v : User) (s : State) :
    Prop where
  stored : Stored home v s.db
  id : v.id = u.id
  role : v.role = u.role
  owned : Owned home u s
  checking : ∀ q ∈ s.checking, q.session.schema ∈ places s.db home u.role ∧ q.user.id = u.id ∧
    q.user.role = u.role
  distinct : Distinct verifyPassword v.recovery_codes_hashed
  absent : ∀ code ∈ s.spent, ∀ hash ∈ v.recovery_codes_hashed, verifyPassword code hash = false
  once : s.spent.Nodup

section Single

variable {verifyPassword : String → String → Bool} {idle : Nat} {home schema sid code : String}
  {u v user : User}
  {session : Session} {now i : Nat} {q : Request} {s s' s₀ : State} {l : Label} {ls : List Label}

theorem getUserById_eq_some {db : Db} {id : String} (h : getUserById schema id db = some user) :
    db.users schema = some user ∧ user.id = id := by
  obtain ⟨hrow, hid⟩ := Option.filter_eq_some_iff.1 h
  exact ⟨hrow, of_decide_eq_true hid⟩

/-- A write to the sessions that changes neither their tenant nor their user. -/
theorem Single.updateSession (hs : Single verifyPassword home u v s) (schema sid : String)
    {f : Session → Session} (hf : ∀ x, (f x).user_id = x.user_id ∧ (f x).schema = x.schema) :
    Single verifyPassword home u v (updateSession schema sid f s) := by
  refine ⟨hs.stored, hs.id, hs.role, fun x hx => ?_, hs.checking, hs.distinct, hs.absent, hs.once⟩
  obtain ⟨y, hy, rfl⟩ := List.mem_map.1 hx
  split
  · rw [(hf y).1, (hf y).2]
    exact hs.owned y hy
  · exact hs.owned y hy

theorem Single.resolve (hs : Single verifyPassword home u v s) (idle : Nat) (schema sid : String)
    (now : Nat) :
    Single verifyPassword home u v (resolveSession idle schema sid now s).2 ∧
      ∀ session user, (resolveSession idle schema sid now s).1 = some (session, user) →
        session.schema ∈ places s.db home u.role ∧ user = v := by
  unfold resolveSession
  split
  · exact ⟨hs, fun _ _ h => nomatch h⟩
  next session hfind =>
  split
  · exact ⟨hs, fun _ _ h => nomatch h⟩
  split
  · exact ⟨hs.updateSession _ _ fun _ => ⟨rfl, rfl⟩, fun _ _ h => nomatch h⟩
  split
  · exact ⟨hs, fun _ _ h => nomatch h⟩
  next user huser =>
  split
  · refine ⟨hs.updateSession _ _ fun _ => ⟨rfl, rfl⟩, fun session' user' h => ?_⟩
    obtain ⟨rfl, rfl⟩ := Prod.mk.inj (Option.some.inj h)
    have hplace := (hs.owned session (List.mem_of_find?_eq_some hfind)).2
    have hfound := List.find?_some hfind
    have hschema : session.schema = schema := (of_decide_eq_true hfound).1
    refine ⟨hplace, ?_⟩
    have hrow := hs.stored schema (hs.role ▸ hschema ▸ hplace)
    exact Option.some.inj ((getUserById_eq_some huser).1.symm.trans hrow)
  · exact ⟨hs, fun _ _ h => nomatch h⟩

theorem resolveSession_db : (resolveSession idle schema sid now s).2.db = s.db := by
  unfold resolveSession
  split
  · rfl
  split
  · rfl
  split
  · rfl
  split
  · rfl
  · split <;> rfl

theorem Single.request (hs : Single verifyPassword home u v s) :
    Single verifyPassword home u v (request idle schema sid code now s) := by
  obtain ⟨hs', hresolved⟩ := hs.resolve idle schema sid now
  unfold RecoveryCodes.request
  dsimp only
  rcases hr : (resolveSession idle schema sid now s).1 with _ | ⟨session, user⟩
  · exact hs'
  dsimp only
  split
  · exact hs'
  obtain ⟨hplace, rfl⟩ := hresolved session user hr
  refine ⟨hs'.stored, hs'.id, hs'.role, hs'.owned, fun q hq => ?_, hs'.distinct, hs'.absent, hs'.once⟩
  rcases List.mem_append.1 hq with hq | hq
  · exact hs'.checking q hq
  · rw [List.mem_singleton.1 hq]
    show session.schema ∈ places (resolveSession idle schema sid now s).2.db home u.role ∧ _
    rw [resolveSession_db]
    exact ⟨hplace, hs.id, hs.role⟩

/-- A code that is one of the user's, and whose request finds the hashes that it has read. -/
theorem Single.checked (hs : Single verifyPassword home u v s) (hq : q ∈ s.checking)
    (hfresh : (consumeRecoveryCode verifyPassword q.code q.user.recovery_codes_hashed).1 = true →
      ∀ row ∈ s.db.users q.session.schema, row.recovery_codes_hashed = q.user.recovery_codes_hashed)
    (h : checked verifyPassword i q s = some s') : ∃ v, Single verifyPassword home u v s' := by
  have hkeep {r : Request} (hr : r ∈ s.checking.eraseIdx i) := hs.checking r (List.mem_of_mem_eraseIdx hr)
  unfold RecoveryCodes.checked at h
  dsimp only at h
  split at h
  · next hok =>
    obtain ⟨hplace, hid, hrole⟩ := hs.checking q hq
    have hread : v.recovery_codes_hashed = q.user.recovery_codes_hashed :=
      hfresh hok v (hs.stored q.session.schema (hs.role ▸ hplace))
    rw [← hread] at hok h
    obtain ⟨db', hdb', hstored, htenants⟩ := hs.stored.update
      { recovery_codes_hashed := some (consumeRecoveryCode verifyPassword q.code v.recovery_codes_hashed).2 }
      (hs.role ▸ hplace) (hid.trans hs.id.symm) (hrole.trans hs.role.symm)
    rw [hdb'] at h
    obtain rfl := Option.some.inj h
    have hplaces : places db' home u.role = places s.db home u.role := by unfold places; rw [htenants]
    have hspent : ∀ code, code ∈ s.promoted.map Prod.fst ++ (s.written ++ [q]).map Request.code ↔
        code ∈ s.spent ∨ code = q.code := by
      intro code
      simp only [State.spent, List.map_append, List.map_cons, List.map_nil, List.mem_append,
        List.mem_singleton, or_assoc]
    refine ⟨_, hstored, hs.id, hs.role, fun x hx => ?_, fun r hr => ?_, ?_, fun code hcode => ?_, ?_⟩
    · show _ ∧ _ ∈ places db' home u.role
      rw [hplaces]
      exact hs.owned x hx
    · show _ ∈ places db' home u.role ∧ _
      rw [hplaces]
      exact hkeep hr
    · exact hs.distinct.sublist (consume_sublist hok)
    · rcases (hspent code).1 hcode with hcode | rfl
      · exact fun hash hmem => hs.absent code hcode hash ((consume_sublist hok).subset hmem)
      · exact consume_absent hs.distinct hok
    · show (s.promoted.map Prod.fst ++ (s.written ++ [q]).map Request.code).Nodup
      rw [List.map_append, ← List.append_assoc, List.nodup_append]
      refine ⟨hs.once, List.nodup_singleton _, fun code hcode code' hcode' heq => ?_⟩
      obtain ⟨hash, hmem, hv⟩ := consume_ok_iff.1 hok
      rw [heq, List.mem_singleton.1 hcode'] at hcode
      have := hs.absent q.code hcode hash hmem
      rw [hv] at this
      cases this
  · obtain rfl := Option.some.inj h
    exact ⟨v, hs.stored, hs.id, hs.role, hs.owned, fun _ => hkeep, hs.distinct, hs.absent, hs.once⟩

/-- The promotion moves the code of a request from the written ones to the promoted ones. -/
theorem spent_promote (hq : s.written[i]? = some q) : (promote i q s).spent.Perm s.spent := by
  obtain ⟨hlt, hq⟩ := List.getElem?_eq_some_iff.1 hq
  have hperm : (q :: s.written.eraseIdx i).Perm s.written := hq ▸ List.getElem_cons_eraseIdx_perm hlt
  show ((s.promoted ++ [(q.code, q.session.id)]).map Prod.fst ++
    (s.written.eraseIdx i).map Request.code).Perm _
  rw [List.map_append, List.append_assoc]
  exact (hperm.map Request.code).append_left _

theorem Single.promote (hs : Single verifyPassword home u v s) (hq : s.written[i]? = some q) :
    Single verifyPassword home u v (promote i q s) := by
  have hperm := spent_promote hq
  refine ⟨hs.stored, hs.id, hs.role, ?_, hs.checking, hs.distinct, fun code hcode => ?_,
    hperm.nodup_iff.2 hs.once⟩
  · exact (hs.updateSession q.session.schema q.session.id
      (f := fun x => { x with totp_pending := false }) fun _ => ⟨rfl, rfl⟩).owned
  · exact hs.absent code (hperm.subset hcode)

theorem Single.step (hs : Single verifyPassword home u v s) (hf : Fresh verifyPassword s l)
    (h : step verifyPassword idle s l = some s') : ∃ v, Single verifyPassword home u v s' := by
  cases l with
  | request schema sid code now =>
    obtain rfl := Option.some.inj h
    exact ⟨v, hs.request⟩
  | checked i =>
    obtain ⟨q, hq, h⟩ := Option.bind_eq_some_iff.1 h
    exact hs.checked (List.mem_of_getElem? hq) (hf q hq) h
  | promote i =>
    obtain ⟨q, hq, rfl⟩ := Option.map_eq_some_iff.1 h
    exact ⟨v, hs.promote hq⟩

/-- Nothing has been requested yet. -/
structure Start (home : String) (u : User) (s : State) : Prop where
  stored : Stored home u s.db
  owned : Owned home u s
  checking : s.checking = []
  written : s.written = []
  promoted : s.promoted = []

/-- In a run of requests each of which, when it writes, finds the hashes that it has read, a code
promotes one session at most and is not among the stored codes afterwards; in every run, a code that
is none of the user's changes nothing. -/
theorem codes_single_use (hd : Distinct verifyPassword u.recovery_codes_hashed) (h₀ : Start home u s₀)
    (ha : Along (RecoveryCodes.step verifyPassword idle) (Fresh verifyPassword) s₀ ls)
    (hr : run (RecoveryCodes.step verifyPassword idle) s₀ ls = some s) :
    (s.promoted.map Prod.fst).Nodup ∧
      (∀ code sid, (code, sid) ∈ s.promoted → ∀ schema ∈ places s.db home u.role, ∃ row,
      s.db.users schema = some row ∧
        ∀ hash ∈ row.recovery_codes_hashed, verifyPassword code hash = false) ∧
      ∀ i q s', s.checking[i]? = some q →
      (∀ hash ∈ q.user.recovery_codes_hashed, verifyPassword q.code hash = false) →
        RecoveryCodes.step verifyPassword idle s (.checked i) = some s' →
        s'.db = s.db ∧ s'.sessions = s.sessions ∧ s'.promoted = s.promoted := by
  have hstart : Single verifyPassword home u u s₀ := by
    have hspent : s₀.spent = [] := by rw [State.spent, h₀.promoted, h₀.written]; rfl
    refine ⟨h₀.stored, rfl, rfl, h₀.owned, ?_, hd, ?_, ?_⟩
    · rw [h₀.checking]
      exact fun q hq => absurd hq List.not_mem_nil
    · rw [hspent]
      exact fun code hcode => absurd hcode List.not_mem_nil
    · rw [hspent]
      exact List.nodup_nil
  obtain ⟨v, hs⟩ := ha.inv (I := fun s => ∃ v, Single verifyPassword home u v s)
    (fun _ _ _ hf hstep ⟨_, hs⟩ => hs.step hf hstep) hr ⟨u, hstart⟩
  refine ⟨(List.nodup_append.1 hs.once).1, fun code sid hmem schema hplace => ?_, fun i q s' hq hnone h => ?_⟩
  · refine ⟨v, hs.stored schema (hs.role ▸ hplace), hs.absent code ?_⟩
    exact List.mem_append_left _ (List.mem_map_of_mem hmem)
  · obtain ⟨q', hq', h⟩ := Option.bind_eq_some_iff.1 h
    obtain rfl := Option.some.inj (hq.symm.trans hq')
    have hok : ¬ (consumeRecoveryCode verifyPassword q.code q.user.recovery_codes_hashed).1 = true := by
      rw [consume_ok_iff]
      rintro ⟨hash, hmem, hv⟩
      rw [hnone hash hmem] at hv
      cases hv
    unfold RecoveryCodes.checked at h
    dsimp only at h
    rw [if_neg hok] at h
    obtain rfl := Option.some.inj h
    exact ⟨rfl, rfl, rfl⟩

end Single

/-! ### Two sessions -/

/-- The check of a code whose hash is the code. -/
def same (password hash : String) : Bool := password = hash

def account : User := ⟨"id", .operator, true, "password", ["AAAA", "BBBB"], 0, none⟩

/-- Two sessions of the account that await their second factor. -/
def pending : State where
  db := ⟨fun schema => if schema = "tenant_one" then some account else none, ["tenant_one"]⟩
  sessions := [⟨"s1", "tenant_one", "id", true, 1000, 0, none⟩,
    ⟨"s2", "tenant_one", "id", true, 1000, 0, none⟩]
  checking := []
  written := []
  promoted := []

theorem pending_start : Start "tenant_one" account pending where
  stored schema hmem := by
    obtain rfl := List.mem_singleton.1 hmem
    rfl
  owned x hx := by
    rcases List.mem_cons.1 hx with rfl | hx
    · exact ⟨rfl, List.mem_singleton.2 rfl⟩
    · obtain rfl := List.mem_singleton.1 hx
      exact ⟨rfl, List.mem_singleton.2 rfl⟩
  checking := rfl
  written := rfl
  promoted := rfl

theorem account_distinct : Distinct same account.recovery_codes_hashed := by
  refine List.pairwise_pair.2 fun code h => ?_
  rw [same, decide_eq_true_eq] at h
  rw [h]
  rfl

/-- A code that is used twice, one request after the other. -/
def oneByOne : List Label :=
  [.request "tenant_one" "s1" "AAAA" 1, .checked 0, .promote 0, .request "tenant_one" "s2" "AAAA" 2,
    .checked 0]

theorem codes_single_use_oneByOne :
    ∃ s, run (step same 900) pending oneByOne = some s ∧ s.promoted = [("AAAA", "s1")] ∧
      ∃ row, s.db.users "tenant_one" = some row ∧
      ∀ hash ∈ row.recovery_codes_hashed, same "AAAA" hash = false := by
  have hfresh : Along (step same 900) (Fresh same) pending oneByOne := by decide
  have hpromoted : (run (step same 900) pending oneByOne).map State.promoted = some [("AAAA", "s1")] := by
    decide
  obtain ⟨s, hr, hpromoted⟩ := Option.map_eq_some_iff.1 hpromoted
  refine ⟨s, hr, hpromoted, ?_⟩
  exact (codes_single_use account_distinct pending_start hfresh hr).2.1 "AAAA" "s1"
    (by rw [hpromoted]; simp) "tenant_one"
    (List.mem_singleton.2 rfl)

/-- Two requests at once, with the codes `code` and `code'`. -/
def atOnce (code code' : String) : List Label :=
  [.request "tenant_one" "s1" code 1, .request "tenant_one" "s2" code' 1, .checked 0, .checked 0,
    .promote 0, .promote 0]

/-- The same code promotes both sessions, and with different codes the first is stored again after
it was used. -/
theorem code_used_again :
    (run (step same 900) pending (atOnce "AAAA" "AAAA")).map State.promoted = some [("AAAA", "s1"),
    ("AAAA", "s2")] ∧ (run (step same 900) pending (atOnce "AAAA" "BBBB")).map (fun s =>
          (s.promoted, (s.db.users "tenant_one").map User.recovery_codes_hashed)) =
        some ([("AAAA", "s1"), ("BBBB", "s2")], some ["AAAA"]) := by
  constructor
  · decide
  · decide

end RecoveryCodes
