import Mathlib
import BetterFrame.Lib.Run
import BetterFrame.Lib.Text
import BetterFrame.Server.RecoveryCodes

/-!
# Sessions of the admin pages

The sessions of `shared/auth.ts`, the gate of `middleware.ts`, and the routes that create, promote
and revoke sessions (`routes-auth.ts`, `POST /admin/account/password`). Requests are concurrent:
each database statement is a step, and between two of them other requests take theirs, accounts and
tenants are edited and time passes. `admissions_justified` says what stands behind every request
that the gate lets through, `revocation_final` that a revoked session is let through no more.

The tables are not those of `Accounts`, which follow one user name and what its logins count: here a
request finds its user by name among all of a tenant's, and reads its session, tenant and user in
separate statements.
-/

namespace AdminSessions

open Machine Text
open Accounts (Role)

structure Tenant where
  id : String
  slug : String
  schema_name : String
  is_active : Bool
deriving DecidableEq

/-- A row of `users`. -/
structure User where
  id : String
  username : String
  role : Role
  is_active : Bool
  password_hash : String
  totp_enabled : Bool
  totp_secret_encrypted : Option String
  recovery_codes_hashed : List String
deriving DecidableEq

/-- A row of `sessions`, in `schema`. -/
structure Session where
  schema : String
  id : String
  user_id : String
  csrf_token : String
  totp_pending : Bool
  last_seen_at : Nat
  expires_at : Nat
  revoked_at : Option Nat
deriving DecidableEq

/-- The libraries' functions and the configuration. -/
structure Platform where
  /-- the HMAC with the cookie key -/
  cookieMac : String → List UInt8
  verifyPassword : String → String → Bool
  hashPassword : String → String → String
  decryptTotpSecret : String → String
  verifyTotpCode : String → String → Nat → Bool
  sessionIdleSeconds : Nat
  sessionMaxSeconds : Nat

variable (pf : Platform)

/-! ### Cookies -/

/-- The cookie of a session: its tenant, its id and a MAC over both. -/
def signCookie (tenantId sid : String) : String :=
  let payload := s!"{tenantId}.{sid}"
  s!"{payload}.{String.ofList (hexOfBytes (pf.cookieMac payload))}"

def isIdChar (c : Char) : Bool :=
  ('a' ≤ c && c ≤ 'z') || ('A' ≤ c && c ≤ 'Z') || ('0' ≤ c && c ≤ '9') || c = '_' || c = '-'

def isHexChar (c : Char) : Bool := ('a' ≤ c && c ≤ 'f') || ('0' ≤ c && c ≤ '9')

/-- The tenant and session of a cookie whose MAC is right. -/
def unsignCookie (cookieValue : String) : Option (String × String) :=
  match splitOn '.' cookieValue.toList with
  | [tenantId, sid, mac] =>
    if tenantId ≠ [] ∧ tenantId.all isIdChar ∧ sid.length = 64 ∧ sid.all isHexChar ∧ mac ≠ [] ∧
        bytesOfHex mac = pf.cookieMac s!"{String.ofList tenantId}.{String.ofList sid}" then
      some (String.ofList tenantId, String.ofList sid)
    else none
  | _ => none

/-! ### What an operator may do -/

def segments (path : String) : List String := (splitOn '/' path.toList).map String.ofList

def isUnsafeMethod (method : String) : Bool := method.map Char.toUpper ∉ ["GET", "HEAD", "OPTIONS"]

/-- `OPERATOR_MUTATIONS`, segment by segment. -/
def operatorMutation : List String → Bool
  | ["", "api", "displays", id, verb] => id ≠ "" && ["focus", "clear", "restore"].contains verb
  | ["", "admin", "displays", id, "layout"] => id ≠ ""
  | ["", "admin", "displays", id, "layout", layout] => id ≠ "" && layout ≠ ""
  | ["", "admin", device, id, "power", verb] =>
    (device = "displays" || device = "kiosks") && id ≠ "" && ["standby", "wake"].contains verb
  | ["", "admin", "kiosks", id, "volume"] => id ≠ ""
  | ["", "admin", "account", "password"] => true
  | ["", "admin", "account", "totp", verb] => ["begin", "confirm", "disable"].contains verb
  | _ => false

/-- `OPERATOR_READS` -/
def operatorRead : List String → Bool
  | ["", "admin"] | ["", "admin", ""] | ["", "admin", "logs"] | ["", "admin", "account"] => true
  | ["", "admin", "logs", id] => id ≠ ""
  | "" :: "admin" :: page :: _ =>
    ["cameras", "displays", "entities", "health", "iobox", "kiosks", "labels", "layouts"].contains page
  | "" :: "api" :: "admin" :: page :: _ =>
    ["_check", "cameras", "displays", "entities", "kiosks", "layouts"].contains page
  | _ => false

/-- `/\/kiosks\/[^/]+\/(?:logs|terminal)$/` -/
def ofKioskLogs (path : List String) : Bool :=
  match path.reverse with
  | last :: id :: "kiosks" :: _ :: _ => id ≠ "" && (last = "logs" || last = "terminal")
  | _ => false

/-- What an operator may reach: by path for reads, by path for changes. -/
def operatorMayAccess (path method : String) : Bool :=
  if ofKioskLogs (segments path) then false
  else if isUnsafeMethod method then operatorMutation (segments path) else operatorRead (segments path)

/-! ### Requests -/

/-- What a route takes from the body. `salt`, `sid` and `csrf_token` are random draws. -/
inductive Route where
  | login (username password sid csrf_token : String)
  | totp (code : String)
  | recovery (code : String)
  | logout
  | admin (current_password new_password salt : String)

/-- `tenant` is the one that the first middleware found for the request, `csrf` the CSRF cookie,
`origin` that the headers of the request name no other site. -/
structure Request where
  route : Route
  cookie : Option String
  tenant : Option Tenant
  path : String
  method : String
  csrf : String
  origin : Bool

/-- `csrfRequestIsValid`. It compares the SHA-256 digests of the two tokens, which are the tokens
here: two tokens with one digest are left out. -/
def Request.csrfIsValid (r : Request) (session : Session) : Bool :=
  r.origin && r.csrf ≠ "" && r.csrf = session.csrf_token

/-- A login whose password is right, `at` the time its session is created. -/
structure Login where
  schema : String
  sid : String
  csrf_token : String
  user : User
  password : String
  at_ : Nat

/-- The code that was accepted as the second factor. -/
inductive Proof where
  | totp (code : String) (at_ : Nat)
  | recovery (code : String)

/-- A second factor that was accepted for a session. -/
structure Factor where
  schema : String
  sid : String
  user : User
  proof : Proof

/-- A request that the gate lets through: the rows it has read, and when it has read the session. -/
structure Admission where
  request : Request
  origin : Tenant
  target : Tenant
  session : Session
  user : User
  readAt : Nat

/-- The statements that a route goes on with. -/
inductive Write where
  | insertSession (login : Login)
  | promote (factor : Factor)
  | revoke (schema sid : String)
  | setCodes (schema : String) (user : User) (codes : List String)
  | setPassword (schema : String) (user : User) (hash : String)
  | revokeUser (schema : String) (user : User)

/-- How far a request is. -/
inductive Stage where
  | arrived (r : Request)
  | tenant (r : Request) (tenant : Tenant) (sid : String)
  | session (r : Request) (tenant : Tenant) (session : Session) (now : Nat)
  | user (r : Request) (tenant : Tenant) (session : Session) (now : Nat) (user : User)
  | resolved (r : Request) (tenant : Tenant) (session : Session) (now : Nat) (user : User)
  | writes (ws : List Write)

/-- `logins`, `factors`, `touched` and `admissions` are what has happened. -/
structure World where
  now : Nat
  tenants : List Tenant
  users : String → List User
  sessions : List Session
  stages : List Stage
  logins : List Login
  factors : List Factor
  touched : List (String × String × Nat)
  admissions : List Admission

/-- Time passes, a request arrives or runs its next statement, or rows are edited. -/
inductive Label where
  | ticks (millis : Nat)
  | arrives (r : Request)
  | advances (i : Nat)
  | editsUsers (users : String → List User)
  | editsTenants (tenants : List Tenant)

namespace World

variable (w : World)

def init : World := ⟨0, [], fun _ => [], [], [], [], [], [], []⟩

def updateSessions (p : Session → Bool) (f : Session → Session) : World :=
  { w with sessions := w.sessions.map fun s => if p s then f s else s }

/-- Revokes the sessions the predicate picks and that are not revoked yet. -/
def revokeWhere (p : Session → Bool) : World :=
  w.updateSessions (fun s => p s && s.revoked_at.isNone) fun s => { s with revoked_at := some w.now }

/-- The schemas of the tenants other than `public`. -/
def mirrors : List String := (w.tenants.map (·.schema_name)).filter (· ≠ "public")

/-- The administrator of the id in the shared schema. -/
def publicAdmin (id : String) : Option User := (w.users "public").find? fun u => u.id = id ∧ u.role = .admin

end World

/-- The columns that `mirrorPlatformAdmins` copies. -/
def mirrored (source target : User) : User := { source with id := target.id, username := target.username }

/-- `mirrorPlatformAdmins` of one administrator in one schema. -/
def mirrorPlatformAdmin (source : User) (users : List User) : List User :=
  let updated := users.map fun u => if u.username = source.username then mirrored source u else u
  if updated.any fun u => u.id = source.id ∨ u.username = source.username then updated
  else updated ++ [source]

/-- `updateAuthenticatedUser`. An administrator that is not in `public` is an error. -/
def updateAuthenticatedUser (w : World) (schema : String) (user : User) (patch : User → User) :
    Option World :=
  let patched (schema : String) := (w.users schema).map fun u => if u.id = user.id then patch u else u
  match user.role with
  | .operator => some { w with users := Function.update w.users schema (patched schema) }
  | .admin =>
    (w.publicAdmin user.id).map fun admin =>
      { w with users := fun s =>
        if s = "public" then patched "public"
        else if s ∈ w.mirrors then mirrorPlatformAdmin (patch admin) (w.users s)
        else w.users s }

/-- `revokePlatformAdminSessions` of an administrator, `revokeAllSessionsForUser` of an operator. -/
def revokeUser (w : World) (schema : String) (user : User) : Option World :=
  match user.role with
  | .operator => some (w.revokeWhere fun s => s.schema = schema && s.user_id = user.id)
  | .admin =>
    (w.publicAdmin user.id).map fun admin =>
      w.revokeWhere fun s =>
        (s.schema = "public" && s.user_id = user.id) ||
          (s.schema ∈ w.mirrors && (w.users s.schema).any fun u => u.username = admin.username &&
            u.id = s.user_id)

/-- A statement, `none` if it is an error. The primary key of `sessions` is the id. -/
def perform (w : World) : Write → Option World
  | .insertSession login =>
    if w.sessions.any fun s => s.schema = login.schema && s.id = login.sid then none
    else some { w with
      sessions := w.sessions ++
        [⟨login.schema, login.sid, login.user.id, login.csrf_token, login.user.totp_enabled, w.now,
        w.now + pf.sessionMaxSeconds * 1000, none⟩]
      logins := { login with at_ := w.now } :: w.logins
      touched := (login.schema, login.sid, w.now) :: w.touched }
  | .promote factor =>
    some (w.updateSessions (fun s => s.schema = factor.schema && s.id = factor.sid) fun s =>
      { s with totp_pending := false })
  | .revoke schema sid =>
    some (w.updateSessions (fun s => s.schema = schema && s.id = sid) fun s =>
      { s with revoked_at := some w.now })
  | .setCodes schema user codes =>
    updateAuthenticatedUser w schema user fun u => { u with recovery_codes_hashed := codes }
  | .setPassword schema user hash =>
    updateAuthenticatedUser w schema user fun u => { u with password_hash := hash }
  | .revokeUser schema user => revokeUser w schema user

/-! ### Routes -/

/-- `POST /auth/login` up to its writes. -/
def login (w : World) (r : Request) (username password sid csrf_token : String) : List Write :=
  match r.tenant with
  | none => []
  | some t =>
    match (w.users t.schema_name).find? fun u => u.username = trim username with
    | none => []
    | some u =>
      if u.is_active && pf.verifyPassword password u.password_hash then
        [.insertSession ⟨t.schema_name, sid, csrf_token, u, password, 0⟩]
      else []

/-- `resolveSession` when the tenant of the cookie is read. -/
def readTenant (w : World) (r : Request) : Stage :=
  match r.cookie.bind (unsignCookie pf) with
  | none => .writes []
  | some (tenantId, sid) =>
    match w.tenants.find? (·.id = tenantId) with
    | none => .writes []
    | some t => if t.is_active then .tenant r t sid else .writes []

/-- `resolveSession` when the session is read. -/
def readSession (w : World) (r : Request) (t : Tenant) (sid : String) : Stage :=
  match w.sessions.find? fun s => s.schema = t.schema_name ∧ s.id = sid with
  | none => .writes []
  | some s =>
    if s.revoked_at.isSome ∨ s.expires_at ≤ w.now then .writes []
    else if s.last_seen_at + pf.sessionIdleSeconds * 1000 < w.now then .writes [.revoke t.schema_name sid]
    else .session r t s w.now

/-- Without white space. -/
def compact (code : String) : String := String.ofList (code.toList.filter fun c => !isSpace c)

def totp (w : World) (r : Request) (t : Tenant) (s : Session) (u : User) (body : String) : List Write :=
  let code := compact body
  if s.totp_pending = false ∨ r.csrfIsValid s = false ∨ code.length ≠ 6 then []
  else
    match truthy u.totp_secret_encrypted with
    | none => []
    | some secret =>
      if pf.verifyTotpCode (pf.decryptTotpSecret secret) code w.now then
        [.promote ⟨t.schema_name, s.id, u, .totp code w.now⟩] else []

def recovery (r : Request) (t : Tenant) (s : Session) (u : User) (body : String) : List Write :=
  let code := (compact body).map Char.toUpper
  if s.totp_pending = false ∨ r.csrfIsValid s = false ∨ code = "" then []
  else
    let (ok, remaining) := RecoveryCodes.consumeRecoveryCode pf.verifyPassword code u.recovery_codes_hashed
    if ok then [.setCodes t.schema_name u remaining, .promote ⟨t.schema_name, s.id, u, .recovery code⟩]
    else []

def platformAdmin (t : Tenant) (u : User) : Bool := u.role = .admin && t.slug = "default"

/-- The gate, of a request whose session is resolved. -/
def gate (r : Request) (t : Tenant) (s : Session) (now : Nat) (u : User) : Option Admission :=
  let target := r.tenant.getD t
  if s.totp_pending then none
  else if target.id ≠ t.id ∧ platformAdmin t u = false then none
  else if "/admin/tenants".toList.isPrefixOf r.path.toList ∧ platformAdmin t u = false then none
  else if u.role = .operator ∧ operatorMayAccess r.path r.method = false then none
  else if isUnsafeMethod r.method ∧ r.csrfIsValid s = false then none
  else some ⟨r, t, target, s, u, now⟩

/-- `event.context.user`, of which an administrator has one in every tenant. -/
def contextUser (w : World) (a : Admission) : User :=
  if platformAdmin a.origin a.user ∧ a.target.id ≠ a.origin.id then
    ((w.users a.target.schema_name).find? fun u => u.username = a.user.username).getD a.user
  else a.user

/-- `POST /admin/account/password`; other routes of the admin pages leave sessions alone. -/
def changePassword (w : World) (a : Admission) (current new salt : String) : List Write :=
  let user := contextUser w a
  if a.request.path ≠ "/admin/account/password" ∨ a.request.method ≠ "POST" ∨
    a.target.slug ≠ "default" then []
  else if current = "" ∨ new = "" ∨ new.length < 12 ∨
    pf.verifyPassword current user.password_hash = false then []
  else [.setPassword a.target.schema_name user (pf.hashPassword salt new),
    .revokeUser a.target.schema_name user]

/-- A factor is noted when its code is accepted. -/
def noteFactors (w : World) (ws : List Write) : World :=
  { w with factors := ws.filterMap (fun | .promote factor => some factor | _ => none) ++ w.factors }

/-- What a request does next, with its session resolved. -/
def route (w : World) (r : Request) (t : Tenant) (s : Session) (now : Nat) (u : User) : World × List Write :=
  match r.route with
  | .login .. => (w, [])
  | .totp code =>
    let ws := totp pf w r t s u code
    (noteFactors w ws, ws)
  | .recovery code =>
    let ws := recovery pf r t s u code
    (noteFactors w ws, ws)
  | .logout => (w, if r.csrfIsValid s then [.revoke t.schema_name s.id] else [])
  | .admin current new salt =>
    if u.role = .admin ∧ t.slug ≠ "default" then (w, [.revoke t.schema_name s.id])
    else
      match gate r t s now u with
      | none => (w, [])
      | some a => ({ w with admissions := a :: w.admissions }, changePassword pf w a current new salt)

/-- One statement of a request, and what it goes on with. -/
def advance (w : World) : Stage → World × Stage
  | .arrived r =>
    match r.route with
    | .login username password sid csrf_token => (w, .writes (login pf w r username password sid csrf_token))
    | _ => (w, readTenant pf w r)
  | .tenant r t sid => (w, readSession pf w r t sid)
  | .session r t s now =>
    match (w.users t.schema_name).find? fun u => u.id = s.user_id with
    | none => (w, .writes [])
    | some u => (w, if u.is_active then .user r t s now u else .writes [])
  | .user r t s now u =>
    ({ w.updateSessions (fun x => x.schema = t.schema_name && x.id = s.id)
      (fun x => { x with last_seen_at := now }) with
      touched := (t.schema_name, s.id, now) :: w.touched }, .resolved r t s now u)
  | .resolved r t s now u => let (w, ws) := route pf w r t s now u; (w, .writes ws)
  | .writes [] => (w, .writes [])
  | .writes (write :: ws) =>
    match perform pf w write with
    | none => (w, .writes [])
    | some w => (w, .writes ws)

def step (w : World) : Label → Option World
  | .ticks millis => some { w with now := w.now + millis }
  | .arrives r => some { w with stages := w.stages ++ [.arrived r] }
  | .advances i =>
    (w.stages[i]?).map fun stage =>
      let (w', stage) := advance pf w stage
      { w' with stages := w.stages.set i stage }
  | .editsUsers users => some { w with users }
  | .editsTenants tenants => some { w with tenants }

/-! ### What stands behind a request -/

section Justified

variable {pf} {w w' : World}

/-- An active user's password. -/
def Login.Valid (pf : Platform) (l : Login) : Prop :=
  l.user.is_active = true ∧ pf.verifyPassword l.password l.user.password_hash = true

/-- The proof given for the second factor is right. -/
def Factor.Valid (pf : Platform) (f : Factor) : Prop :=
  match f.proof with
  | .totp code t =>
    ∃ secret, f.user.totp_secret_encrypted = some secret ∧
      pf.verifyTotpCode (pf.decryptTotpSecret secret) code t = true
  | .recovery code =>
    (RecoveryCodes.consumeRecoveryCode pf.verifyPassword code f.user.recovery_codes_hashed).1 = true

/-- What a session's row is worth: the login it comes from, the second factor if it is not pending
and the user has one, and when it was used last. -/
structure Backed (pf : Platform) (w : World) (s : Session) : Prop where
  login : ∃ l ∈ w.logins, l.Valid pf ∧ l.schema = s.schema ∧ l.sid = s.id ∧ l.user.id = s.user_id ∧
    l.csrf_token = s.csrf_token ∧ s.expires_at = l.at_ + pf.sessionMaxSeconds * 1000 ∧
    (l.user.totp_enabled = true → s.totp_pending = false → ∃ f ∈ w.factors, f.Valid pf ∧
      f.schema = s.schema ∧ f.sid = s.id ∧ f.user.id = s.user_id)
  used : (s.schema, s.id, s.last_seen_at) ∈ w.touched

/-- A session in force at `now`, with the tenant and the user that are read. -/
structure InForce (pf : Platform) (w : World) (t : Tenant) (s : Session) (now : Nat) : Prop where
  backed : Backed pf w s
  active : t.is_active = true
  schema : s.schema = t.schema_name
  unrevoked : s.revoked_at = none
  unexpired : now < s.expires_at
  unidle : now ≤ s.last_seen_at + pf.sessionIdleSeconds * 1000

/-- The user of a session. -/
def Of (s : Session) (u : User) : Prop := u.id = s.user_id ∧ u.is_active = true

/-- What the gate asks of a request in force. -/
structure Allowed (a : Admission) : Prop where
  complete : a.session.totp_pending = false
  /-- only the default tenant's administrators reach another tenant or the tenants' pages -/
  confined : a.target.id ≠ a.origin.id ∨ "/admin/tenants".toList.isPrefixOf a.request.path.toList = true →
    a.user.role = .admin ∧ a.origin.slug = "default"
  administrator : a.user.role = .admin → a.origin.slug = "default"
  operator : a.user.role = .operator → operatorMayAccess a.request.path a.request.method = true
  csrf : isUnsafeMethod a.request.method = true → a.request.origin = true ∧
    a.request.csrf = a.session.csrf_token

/-- What an admission rests on: a session in force, the gate's rules, and the session's user. -/
structure Justified (pf : Platform) (w : World) (a : Admission) : Prop extends
  InForce pf w a.origin a.session a.readAt, Allowed a where
  user : Of a.session a.user

/-- What a request at this stage has passed. -/
def Stage.Sound (pf : Platform) (w : World) : Stage → Prop
  | .arrived _ => True
  | .tenant _ t _ => t.is_active = true
  | .session _ t s now => InForce pf w t s now
  | .user _ t s now u | .resolved _ t s now u => InForce pf w t s now ∧ Of s u
  | .writes ws => ∀ write ∈ ws, match write with
    | .insertSession l => l.Valid pf
    | .promote f =>
      f ∈ w.factors ∧ f.Valid pf ∧ ∃ l ∈ w.logins, l.schema = f.schema ∧ l.sid = f.sid ∧
        l.user.id = f.user.id
    | _ => True

/-- What has happened has happened. -/
structure Grew (w w' : World) : Prop where
  logins : w.logins ⊆ w'.logins
  factors : w.factors ⊆ w'.factors
  touched : w.touched ⊆ w'.touched

theorem Grew.same (hl : w.logins = w'.logins) (hf : w.factors = w'.factors) (ht : w.touched = w'.touched) :
    Grew w w' :=
  ⟨fun _ h => hl ▸ h, fun _ h => hf ▸ h, fun _ h => ht ▸ h⟩

theorem Backed.mono {s : Session} (h : Backed pf w s) (hg : Grew w w') : Backed pf w' s := by
  obtain ⟨⟨l, hl, hv, hs, hi, hu, hc, he, hf⟩, ht⟩ := h
  refine ⟨⟨l, hg.logins hl, hv, hs, hi, hu, hc, he, fun ht hp => ?_⟩, hg.touched ht⟩
  obtain ⟨f, hmem, h⟩ := hf ht hp
  exact ⟨f, hg.factors hmem, h⟩

theorem InForce.mono {t : Tenant} {s : Session} {now : Nat} (h : InForce pf w t s now) (hg : Grew w w') :
    InForce pf w' t s now :=
  { h with backed := h.backed.mono hg }

theorem Stage.Sound.mono {stage : Stage} (h : stage.Sound pf w) (hg : Grew w w') : stage.Sound pf w' := by
  cases stage with
  | arrived => trivial
  | tenant => exact h
  | session => exact InForce.mono h hg
  | user | resolved => exact ⟨h.1.mono hg, h.2⟩
  | writes ws =>
    intro write hw
    have hwrite := h write hw
    cases write with
    | insertSession l => exact hwrite
    | promote f =>
      obtain ⟨hf, hv, l, hl, h⟩ := hwrite
      exact ⟨hg.factors hf, hv, l, hg.logins hl, h⟩
    | revoke | setCodes | setPassword | revokeUser => trivial

theorem Stage.Sound.nil : (Stage.writes []).Sound pf w := fun _ hw => absurd hw List.not_mem_nil

theorem Stage.Sound.revoke {schema sid : String} :
    (Stage.writes [.revoke schema sid]).Sound pf w := fun _ hw =>
  List.mem_singleton.1 hw ▸ trivial

/-- The rows and what has happened agree. -/
structure Core (pf : Platform) (w : World) : Prop where
  sessions : ∀ s ∈ w.sessions, Backed pf w s
  rows : ∀ l ∈ w.logins, ∃ s ∈ w.sessions, s.schema = l.schema ∧ s.id = l.sid
  unique : ∀ l ∈ w.logins, ∀ l' ∈ w.logins, l.schema = l'.schema → l.sid = l'.sid → l = l'
  admissions : ∀ a ∈ w.admissions, Justified pf w a

theorem Core.updateSessions {p : Session → Bool} {f : Session → Session}
    (touched : List (String × String × Nat)) (h : Core pf w)
    (hid : ∀ s, (f s).schema = s.schema ∧ (f s).id = s.id) (ht : w.touched ⊆ touched)
    (hf : ∀ s ∈ w.sessions, p s = true → Backed pf { w with touched } (f s)) :
    Core pf { w.updateSessions p f with touched } := by
  have hg : Grew w { w.updateSessions p f with touched } := ⟨fun _ h => h, fun _ h => h, ht⟩
  have hback : ∀ s, Backed pf { w with touched } s → Backed pf { w.updateSessions p f with touched } s :=
    fun s h => ⟨h.login, h.used⟩
  refine ⟨?_, ?_, h.unique,
    fun a ha => { h.admissions a ha with backed := (h.admissions a ha).backed.mono hg }⟩
  · intro s hs
    obtain ⟨s, hmem, rfl⟩ := List.mem_map.1 hs
    dsimp only
    split_ifs with hp
    · exact hback _ (hf s hmem hp)
    · exact (h.sessions s hmem).mono hg
  · intro l hl
    obtain ⟨s, hs, hsl, hil⟩ := h.rows l hl
    refine ⟨_, List.mem_map_of_mem hs, ?_⟩
    split_ifs
    · exact ⟨(hid s).1.trans hsl, (hid s).2.trans hil⟩
    · exact ⟨hsl, hil⟩

theorem Core.revokes {p : Session → Bool} (h : Core pf w) :
    Core pf (w.updateSessions p fun s => { s with revoked_at := some w.now }) :=
  h.updateSessions w.touched (fun _ => ⟨rfl, rfl⟩) (fun _ h => h) fun s hs _ =>
    ⟨(h.sessions s hs).login, (h.sessions s hs).used⟩

theorem Core.insert {l : Login} (h : Core pf w) (hv : l.Valid pf)
    (hnew : ¬ w.sessions.any (fun s => s.schema = l.schema && s.id = l.sid) = true) :
    Core pf { w with
      sessions := w.sessions ++ [⟨l.schema, l.sid, l.user.id, l.csrf_token, l.user.totp_enabled, w.now,
        w.now + pf.sessionMaxSeconds * 1000, none⟩]
      logins := { l with at_ := w.now } :: w.logins
      touched := (l.schema, l.sid, w.now) :: w.touched } := by
  have hfree : ∀ l' ∈ w.logins, l.schema = l'.schema → l.sid ≠ l'.sid := by
    intro l' hl' hs hi
    obtain ⟨s, hmem, hsl, hil⟩ := h.rows l' hl'
    refine hnew (List.any_eq_true.2 ⟨s, hmem, ?_⟩)
    simp [hsl, hil, hs, hi]
  have hg : ∀ sessions, Grew w { w with
      sessions
      logins := { l with at_ := w.now } :: w.logins
      touched := (l.schema, l.sid, w.now) :: w.touched } :=
    fun _ => ⟨List.subset_cons_self _ _, fun _ h => h, List.subset_cons_self _ _⟩
  refine ⟨?_, ?_, ?_, fun a ha => { h.admissions a ha with backed := (h.admissions a ha).backed.mono (hg _) }⟩
  · intro s hs
    rcases List.mem_append.1 hs with hs | hs
    · exact (h.sessions s hs).mono (hg _)
    · obtain rfl := List.mem_singleton.1 hs
      refine ⟨⟨{ l with at_ := w.now }, List.mem_cons_self, hv, rfl, rfl, rfl, rfl, rfl, fun ht hp => ?_⟩,
        List.mem_cons_self⟩
      exact absurd (ht.symm.trans hp) nofun
  · intro l' hl'
    rcases List.mem_cons.1 hl' with rfl | hl'
    · exact ⟨_, List.mem_append_right _ (List.mem_singleton_self _), rfl, rfl⟩
    · obtain ⟨s, hs, h⟩ := h.rows l' hl'
      exact ⟨s, List.mem_append_left _ hs, h⟩
  · intro a ha b hb hs hi
    rcases List.mem_cons.1 ha with rfl | ha <;> rcases List.mem_cons.1 hb with rfl | hb
    · rfl
    · exact absurd hi (hfree b hb hs)
    · exact absurd hi.symm (hfree a ha hs.symm)
    · exact h.unique a ha b hb hs hi

/-! ### One statement -/

theorem updateAuthenticatedUser_eq {schema : String} {user : User} {patch : User → User}
    (h : updateAuthenticatedUser w schema user patch = some w') : ∃ users, w' = { w with users } := by
  unfold updateAuthenticatedUser at h
  split at h
  · exact ⟨_, (Option.some.inj h).symm⟩
  · obtain ⟨_, _, rfl⟩ := Option.map_eq_some_iff.1 h
    exact ⟨_, rfl⟩

theorem revokeUser_eq {schema : String} {user : User} (h : revokeUser w schema user = some w') :
    ∃ p, w' = w.revokeWhere p := by
  unfold revokeUser at h
  split at h
  · exact ⟨_, (Option.some.inj h).symm⟩
  · obtain ⟨_, _, rfl⟩ := Option.map_eq_some_iff.1 h
    exact ⟨_, rfl⟩

theorem Core.perform {write : Write} {ws : List Write} (h : Core pf w)
    (hs : (Stage.writes (write :: ws)).Sound pf w)
    (hp : perform pf w write = some w') : Core pf w' ∧ Grew w w' := by
  have hwrite := hs write List.mem_cons_self
  cases write with
  | insertSession l =>
    rw [AdminSessions.perform] at hp
    split_ifs at hp with hnew
    cases hp
    exact ⟨h.insert hwrite hnew, ⟨List.subset_cons_self _ _, fun _ h => h, List.subset_cons_self _ _⟩⟩
  | promote f =>
    cases hp
    obtain ⟨hf, hv, l, hl, hls, hli, hlu⟩ := hwrite
    refine ⟨h.updateSessions w.touched (fun _ => ⟨rfl, rfl⟩) (fun _ h => h) fun s hmem hp => ?_,
      .same rfl rfl rfl⟩
    obtain ⟨hsf, hif⟩ : s.schema = f.schema ∧ s.id = f.sid := by simpa using hp
    obtain ⟨⟨l', hl', hv', hs', hi', hu', hc', he', _⟩, ht⟩ := h.sessions s hmem
    obtain rfl := h.unique l hl l' hl' ((hls.trans hsf.symm).trans hs'.symm)
      ((hli.trans hif.symm).trans hi'.symm)
    exact ⟨⟨l, hl, hv', hs', hi', hu', hc', he',
      fun _ _ => ⟨f, hf, hv, hsf.symm, hif.symm, hlu.symm.trans hu'⟩⟩, ht⟩
  | revoke schema sid => cases hp; exact ⟨h.revokes, .same rfl rfl rfl⟩
  | setCodes | setPassword =>
    obtain ⟨users, rfl⟩ := updateAuthenticatedUser_eq hp
    exact ⟨⟨fun s hs => (h.sessions s hs).mono (.same rfl rfl rfl), h.rows, h.unique,
      fun a ha => { h.admissions a ha with backed := (h.admissions a ha).backed.mono (.same rfl rfl rfl) }⟩,
        .same rfl rfl rfl⟩
  | revokeUser =>
    obtain ⟨p, rfl⟩ := revokeUser_eq hp
    exact ⟨h.revokes, .same rfl rfl rfl⟩

theorem totp_sound {r : Request} {t : Tenant} {s : Session} {u : User} {code : String} {write : Write}
    (hw : write ∈ totp pf w r t s u code) :
    ∃ f, write = .promote f ∧ f.Valid pf ∧ f.schema = t.schema_name ∧ f.sid = s.id ∧ f.user = u := by
  unfold totp at hw
  dsimp only at hw
  split_ifs at hw
  · exact absurd hw List.not_mem_nil
  split at hw
  · exact absurd hw List.not_mem_nil
  · rename_i secret hsecret
    split_ifs at hw with hv
    · exact ⟨_, List.mem_singleton.1 hw, ⟨secret, (truthy_eq_some.1 hsecret).1, hv⟩, rfl, rfl, rfl⟩
    · exact absurd hw List.not_mem_nil

theorem recovery_sound {r : Request} {t : Tenant} {s : Session} {u : User} {code : String} {write : Write}
    (hw : write ∈ recovery pf r t s u code) :
    (∃ codes, write = .setCodes t.schema_name u codes) ∨
      ∃ f, write = .promote f ∧ f.Valid pf ∧ f.schema = t.schema_name ∧ f.sid = s.id ∧ f.user = u := by
  unfold recovery at hw
  dsimp only at hw
  split_ifs at hw with _ hok
  · exact absurd hw List.not_mem_nil
  · rcases List.mem_cons.1 hw with rfl | hw
    · exact .inl ⟨_, rfl⟩
    · exact .inr ⟨_, List.mem_singleton.1 hw, hok, rfl, rfl, rfl⟩
  · exact absurd hw List.not_mem_nil

theorem login_sound {r : Request} {username password sid csrf_token : String} :
    (Stage.writes (login pf w r username password sid csrf_token)).Sound pf w := by
  intro write hw
  unfold login at hw
  split at hw
  · exact absurd hw List.not_mem_nil
  split at hw
  · exact absurd hw List.not_mem_nil
  split_ifs at hw with hv
  · obtain rfl := List.mem_singleton.1 hw
    exact Bool.and_eq_true_iff.1 hv
  · exact absurd hw List.not_mem_nil

theorem gate_eq {r : Request} {t : Tenant} {s : Session} {now : Nat} {u : User} {a : Admission}
    (hg : gate r t s now u = some a) :
    a = ⟨r, t, r.tenant.getD t, s, u, now⟩ := by
  unfold gate at hg
  dsimp only at hg
  split_ifs at hg
  exact (Option.some.inj hg).symm

theorem gate_allowed {r : Request} {t : Tenant} {s : Session} {now : Nat} {u : User} {a : Admission}
    (hg : gate r t s now u = some a) (hadmin : ¬ (u.role = .admin ∧ t.slug ≠ "default")) : Allowed a := by
  obtain rfl := gate_eq hg
  unfold gate at hg
  dsimp only at hg
  split_ifs at hg with hp ht hpath hop hcsrf
  refine ⟨by simpa using hp, ?_, ?_, ?_, ?_⟩
  · intro hcross
    have hplat : platformAdmin t u = true := by
      rcases hcross with hc | hc
      · exact eq_true_of_ne_false fun hf => ht ⟨hc, hf⟩
      · exact eq_true_of_ne_false fun hf => hpath ⟨hc, hf⟩
    simpa [platformAdmin] using hplat
  · exact fun hr => not_not.1 fun hs => hadmin ⟨hr, hs⟩
  · exact fun hr => eq_true_of_ne_false fun hf => hop ⟨hr, hf⟩
  · intro hm
    have hv : r.csrfIsValid s = true := eq_true_of_ne_false fun hf => hcsrf ⟨hm, hf⟩
    simp only [Request.csrfIsValid, Bool.and_eq_true, decide_eq_true_eq] at hv
    exact ⟨hv.1.1, hv.2⟩

theorem changePassword_sound {a : Admission} {current new salt : String} :
    (Stage.writes (changePassword pf w a current new salt)).Sound pf w' := by
  intro write hw
  unfold changePassword at hw
  dsimp only at hw
  split_ifs at hw
  · exact absurd hw List.not_mem_nil
  · exact absurd hw List.not_mem_nil
  · rcases List.mem_cons.1 hw with rfl | hw
    · trivial
    · exact List.mem_singleton.1 hw ▸ trivial

/-- Writes that promote a session of a request in force, once their factors are noted. -/
theorem Core.noted {t : Tenant} {s : Session} {now : Nat} {u : User} {ws : List Write} (h : Core pf w)
    (hf : InForce pf w t s now)
    (hu : Of s u) (hws : ∀ write ∈ ws, (∃ codes, write = .setCodes t.schema_name u codes) ∨
      ∃ f, write = .promote f ∧ f.Valid pf ∧ f.schema = t.schema_name ∧ f.sid = s.id ∧ f.user = u) :
    Core pf (noteFactors w ws) ∧ Grew w (noteFactors w ws) ∧ (Stage.writes ws).Sound pf
    (noteFactors w ws) := by
  have hg : Grew w (noteFactors w ws) := ⟨fun _ h => h, List.subset_append_right _ _, fun _ h => h⟩
  refine ⟨⟨fun s hs => (h.sessions s hs).mono hg, h.rows, h.unique,
    fun a ha => { h.admissions a ha with backed := (h.admissions a ha).backed.mono hg }⟩, hg,
      fun write hw => ?_⟩
  rcases hws write hw with ⟨codes, rfl⟩ | ⟨f, rfl, hv, hs, hi, rfl⟩
  · trivial
  · obtain ⟨l, hl, _, hls, hli, hlu, _⟩ := hf.backed.login
    refine ⟨List.mem_append_left _ (List.mem_filterMap.2 ⟨_, hw, rfl⟩), hv, l, hl, ?_,
      hli.trans hi.symm, hlu.trans hu.1.symm⟩
    exact (hls.trans hf.schema).trans hs.symm

theorem Core.route {r : Request} {t : Tenant} {s : Session} {now : Nat} {u : User} (h : Core pf w)
    (hf : InForce pf w t s now)
    (hu : Of s u) : Core pf (route pf w r t s now u).1 ∧ Grew w (route pf w r t s now u).1 ∧
      (Stage.writes (route pf w r t s now u).2).Sound pf (route pf w r t s now u).1 := by
  unfold AdminSessions.route
  split
  · exact ⟨h, .same rfl rfl rfl, .nil⟩
  · exact h.noted hf hu fun write hw => .inr (totp_sound hw)
  · exact h.noted hf hu fun write hw => recovery_sound hw
  · refine ⟨h, .same rfl rfl rfl, ?_⟩
    dsimp only
    split_ifs
    exacts [.revoke, .nil]
  · split_ifs with hadmin
    · exact ⟨h, .same rfl rfl rfl, .revoke⟩
    · split
      · exact ⟨h, .same rfl rfl rfl, .nil⟩
      · rename_i a hgate
        have hallowed := gate_allowed hgate hadmin
        obtain rfl := gate_eq hgate
        have hj : Justified pf w _ := { hf, hallowed with user := hu }
        refine ⟨⟨fun s hs => (h.sessions s hs).mono (.same rfl rfl rfl), h.rows, h.unique, fun b hb => ?_⟩,
          .same rfl rfl rfl, changePassword_sound⟩
        have hb : Justified pf w b := by
          rcases List.mem_cons.1 hb with rfl | hb
          exacts [hj, h.admissions b hb]
        exact { hb with backed := hb.backed.mono (.same rfl rfl rfl) }

theorem Core.congr (h : Core pf w) (hs : w.sessions = w'.sessions) (hl : w.logins = w'.logins)
    (hf : w.factors = w'.factors)
    (ht : w.touched = w'.touched) (ha : w.admissions = w'.admissions) : Core pf w' := by
  have hg : Grew w w' := .same hl hf ht
  exact ⟨fun s hmem => (h.sessions s (hs ▸ hmem)).mono hg, hl ▸ hs ▸ h.rows, hl ▸ h.unique,
    fun a hmem => { h.admissions a (ha ▸ hmem) with backed := (h.admissions a (ha ▸ hmem)).backed.mono hg }⟩

/-! #### What a statement of a request comes to -/

theorem advance_arrived (pf : Platform) (w : World) (r : Request) :
    advance pf w (.arrived r) = (w, readTenant pf w r) ∨
    ∃ username password sid csrf_token,
      advance pf w (.arrived r) = (w, .writes (login pf w r username password sid csrf_token)) := by
  cases hr : r.route with
  | login username password sid csrf_token =>
    exact .inr ⟨username, password, sid, csrf_token, by simp only [advance, hr]⟩
  | totp | recovery | logout | admin => exact .inl (by simp only [advance, hr])

theorem readTenant_cases (pf : Platform) (w : World) (r : Request) : readTenant pf w r = .writes [] ∨
    ∃ t sid, t.is_active = true ∧ readTenant pf w r = .tenant r t sid := by
  unfold readTenant
  split
  · exact .inl rfl
  split
  · exact .inl rfl
  split_ifs with ht
  exacts [.inr ⟨_, _, ht, rfl⟩, .inl rfl]

theorem readSession_cases (pf : Platform) (w : World) (r : Request) (t : Tenant) (sid : String) :
    readSession pf w r t sid = .writes [] ∨ readSession pf w r t sid = .writes [.revoke t.schema_name sid] ∨
      ∃ s ∈ w.sessions, readSession pf w r t sid = .session r t s w.now ∧ s.schema = t.schema_name ∧
      s.revoked_at = none ∧
        w.now < s.expires_at ∧ w.now ≤ s.last_seen_at + pf.sessionIdleSeconds * 1000 := by
  unfold readSession
  split
  · exact .inl rfl
  · rename_i s hs
    have hkey : s.schema = t.schema_name ∧ s.id = sid := by simpa using List.find?_some hs
    split_ifs with hr hidle
    · exact .inl rfl
    · exact .inr (.inl rfl)
    · rw [not_or, Bool.not_eq_true, Option.isSome_eq_false_iff, Option.isNone_iff_eq_none] at hr
      exact .inr (.inr ⟨s, List.mem_of_find?_eq_some hs, rfl, hkey.1, hr.1, by omega, by omega⟩)

theorem advance_session (pf : Platform) (w : World) (r : Request) (t : Tenant) (s : Session) (now : Nat) :
    advance pf w (.session r t s now) = (w, .writes []) ∨
      ∃ u, Of s u ∧ advance pf w (.session r t s now) = (w, .user r t s now u) := by
  simp only [advance]
  split
  · exact .inl rfl
  · rename_i u hu
    have hid : u.id = s.user_id := by simpa using List.find?_some hu
    split_ifs with ha
    exacts [.inr ⟨u, ⟨hid, ha⟩, rfl⟩, .inl rfl]

theorem advance_write (pf : Platform) (w : World) (write : Write) (ws : List Write) :
    advance pf w (.writes (write :: ws)) = (w, .writes []) ∨
      ∃ w', perform pf w write = some w' ∧ advance pf w (.writes (write :: ws)) = (w', .writes ws) := by
  simp only [advance]
  split
  · exact .inl rfl
  · rename_i w' hp
    exact .inr ⟨w', hp, rfl⟩

theorem readTenant_sound {r : Request} : (readTenant pf w r).Sound pf w := by
  rcases readTenant_cases pf w r with heq | ⟨t, sid, ht, heq⟩ <;> rw [heq]
  exacts [.nil, ht]

theorem readSession_sound {r : Request} {t : Tenant} {sid : String} (h : Core pf w)
    (ht : t.is_active = true) :
    (readSession pf w r t sid).Sound pf w := by
  rcases readSession_cases pf w r t sid with heq | heq | ⟨s, hs, heq, hschema, hrev, he, hi⟩ <;> rw [heq]
  exacts [.nil, .revoke, ⟨h.sessions s hs, ht, hschema, hrev, he, hi⟩]

theorem Core.advance {stage : Stage} (h : Core pf w) (hs : stage.Sound pf w) :
    Core pf (advance pf w stage).1 ∧ Grew w (advance pf w stage).1 ∧ (advance pf w stage).2.Sound pf
    (advance pf w stage).1 := by
  have hsame : ∀ stage : Stage, stage.Sound pf w → Core pf w ∧ Grew w w ∧ stage.Sound pf w :=
    fun stage hs => ⟨h, .same rfl rfl rfl, hs⟩
  cases stage with
  | arrived r =>
    rcases advance_arrived pf w r with heq | ⟨username, password, sid, csrf_token, heq⟩ <;> rw [heq]
    exacts [hsame _ readTenant_sound, hsame _ login_sound]
  | tenant r t sid => exact hsame _ (readSession_sound h hs)
  | session r t s now =>
    rcases advance_session pf w r t s now with heq | ⟨u, hu, heq⟩ <;> rw [heq]
    exacts [hsame _ .nil, hsame (.user r t s now u) ⟨hs, hu⟩]
  | user r t s now u =>
    obtain ⟨hf, hu⟩ := hs
    have hg : ∀ sessions, Grew w { w with sessions, touched := (t.schema_name, s.id, now) :: w.touched } :=
      fun _ => ⟨fun _ h => h, fun _ h => h, List.subset_cons_self _ _⟩
    refine ⟨h.updateSessions _ (fun _ => ⟨rfl, rfl⟩) (List.subset_cons_self _ _) fun x hx hp => ?_,
      hg _, hf.mono (hg _), hu⟩
    obtain ⟨hxs, hxi⟩ : x.schema = t.schema_name ∧ x.id = s.id := by simpa using hp
    refine ⟨(h.sessions x hx).login, ?_⟩
    rw [hxs, hxi]
    exact List.mem_cons_self
  | resolved r t s now u => exact h.route hs.1 hs.2
  | writes ws =>
    cases ws with
    | nil => exact hsame _ hs
    | cons write ws =>
      rcases advance_write pf w write ws with heq | ⟨w', hp, heq⟩ <;> rw [heq]
      · exact hsame _ .nil
      · obtain ⟨hc, hg⟩ := h.perform hs hp
        exact ⟨hc, hg, Stage.Sound.mono (fun write hw => hs write (List.mem_cons_of_mem _ hw)) hg⟩

/-- `Core`, and whatever a request has read was so when it read it. -/
structure Inv (pf : Platform) (w : World) : Prop extends Core pf w where
  stages : ∀ stage ∈ w.stages, stage.Sound pf w

theorem Inv.init : Inv pf .init := by
  constructor
  · constructor <;> simp [World.init]
  · simp [World.init]

theorem Inv.step {l : Label} (h : Inv pf w) (hs : step pf w l = some w') : Inv pf w' := by
  cases l with
  | ticks millis =>
    cases hs
    exact ⟨h.toCore.congr rfl rfl rfl rfl rfl, fun st hst => (h.stages st hst).mono (.same rfl rfl rfl)⟩
  | editsUsers users =>
    cases hs
    exact ⟨h.toCore.congr rfl rfl rfl rfl rfl, fun st hst => (h.stages st hst).mono (.same rfl rfl rfl)⟩
  | editsTenants tenants =>
    cases hs
    exact ⟨h.toCore.congr rfl rfl rfl rfl rfl, fun st hst => (h.stages st hst).mono (.same rfl rfl rfl)⟩
  | arrives r =>
    cases hs
    refine ⟨h.toCore.congr rfl rfl rfl rfl rfl, fun st hst => ?_⟩
    rcases List.mem_append.1 hst with hst | hst
    · exact (h.stages st hst).mono (.same rfl rfl rfl)
    · obtain rfl := List.mem_singleton.1 hst
      trivial
  | advances i =>
    obtain ⟨stage, hi, rfl⟩ := Option.map_eq_some_iff.1 hs
    obtain ⟨hc, hg, hst⟩ := h.toCore.advance (h.stages stage (List.mem_of_getElem? hi))
    refine ⟨hc.congr rfl rfl rfl rfl rfl, fun st hmem => ?_⟩
    have hst' : st.Sound pf (advance pf w stage).1 := by
      rcases List.mem_or_eq_of_mem_set hmem with hmem | rfl
      · exact (h.stages st hmem).mono hg
      · exact hst
    exact hst'.mono (.same rfl rfl rfl)

/-- Behind every request that the gate lets through stands a login with the password of an active
user, for no longer than a session lasts, the second factor of a user who has one, and a use of the
session that is not too long ago; the user and the tenant are active, the session is not revoked,
and the gate's own rules hold. -/
theorem admissions_justified {ls : List Label} {a : Admission}
    (hrun : run (AdminSessions.step pf) .init ls = some w)
    (ha : a ∈ w.admissions) :
    (∃ l ∈ w.logins, l.Valid pf ∧ l.schema = a.origin.schema_name ∧ l.sid = a.session.id ∧
      l.user.id = a.user.id ∧ a.readAt < l.at_ + pf.sessionMaxSeconds * 1000 ∧
      (l.user.totp_enabled = true → ∃ f ∈ w.factors, f.Valid pf ∧ f.schema = l.schema ∧
        f.sid = l.sid ∧ f.user.id = a.user.id)) ∧
    (∃ t, (a.origin.schema_name, a.session.id, t) ∈ w.touched ∧ a.readAt ≤ t + pf.sessionIdleSeconds * 1000) ∧
    a.user.is_active = true ∧ a.origin.is_active = true ∧ a.session.revoked_at = none ∧ Allowed a := by
  have hj := (run_inv (fun _ _ _ hs h => Inv.step h hs) hrun Inv.init).admissions a ha
  obtain ⟨l, hl, hv, hs, hi, hu, _, he, hf⟩ := hj.backed.login
  refine ⟨⟨l, hl, hv, hs.trans hj.schema, hi, hu.trans hj.user.1.symm, he ▸ hj.unexpired, fun ht => ?_⟩,
    ⟨a.session.last_seen_at, hj.schema ▸ hj.backed.used, hj.unidle⟩, hj.user.2, hj.active,
      hj.unrevoked, hj.toAllowed⟩
  obtain ⟨f, hmem, hfv, hfs, hfi, hfu⟩ := hf ht hj.complete
  exact ⟨f, hmem, hfv, hfs.trans hs.symm, hfi.trans hi.symm, hfu.trans hj.user.1.symm⟩

def plainPlatform : Platform where
  cookieMac _ := [7]
  verifyPassword password hash := password = hash
  hashPassword _ password := password
  decryptTotpSecret secret := secret
  verifyTotpCode secret code _ := secret = code
  sessionIdleSeconds := 60
  sessionMaxSeconds := 3600

def home : Tenant := ⟨"t", "default", "public", true⟩

def root : User := ⟨"u", "root", .admin, true, "correct horse", true, some "123456", []⟩

def sessionId : String := String.ofList (List.replicate 64 'a')

def request (route : Route) (path method : String) : Request :=
  ⟨route, some (signCookie plainPlatform "t" sessionId), some home, path, method, "csrf", true⟩

/-- An administrator logs in, gives the second factor, reads a page and logs out. -/
def visit : List Label := List.flatten [
  [.editsTenants [home], .editsUsers fun schema => if schema = "public" then [root] else []],
  [.arrives (request (.login "root" "correct horse" sessionId "csrf") "/auth/login" "POST"),
    .advances 0, .advances 0],
  .arrives (request (.totp "123 456") "/auth/totp" "POST") :: List.replicate 6 (.advances 1),
  .arrives (request (.admin "" "" "") "/admin/tenants" "GET") :: List.replicate 5 (.advances 2),
  .arrives (request .logout "/auth/logout" "POST") :: List.replicate 5 (.advances 3)]

theorem admissions_justified_visit : ∃ w a, run (AdminSessions.step plainPlatform) .init visit = some w ∧
    a ∈ w.admissions ∧
    (∃ l ∈ w.logins, l.Valid plainPlatform ∧ l.user.id = a.user.id) ∧ Allowed a := by
  have hany : (run (AdminSessions.step plainPlatform) .init visit).any (·.admissions.length = 1) =
      true := by decide +kernel
  obtain ⟨w, hrun, hw⟩ := (Option.any_eq_true _ _).1 hany
  obtain ⟨a, ha⟩ := List.length_eq_one_iff.1 (of_decide_eq_true hw)
  have hmem : a ∈ w.admissions := ha ▸ List.mem_singleton_self a
  obtain ⟨⟨l, hl, hv, _, _, hu, _⟩, _, _, _, _, hallowed⟩ := admissions_justified hrun hmem
  exact ⟨w, a, hrun, hmem, ⟨l, hl, hv, hu⟩, hallowed⟩

end Justified

/-! ### Revocation -/

section Revocation

variable {pf} {w w' : World} {schema sid : String}

/-- What a request has read, once it has read its session. -/
def Stage.snapshot : Stage → Option (Request × Tenant × Session × Nat)
  | .arrived _ | .tenant .. | .writes _ => none
  | .session r t s now | .user r t s now _ | .resolved r t s now _ => some (r, t, s, now)

/-- Rows stay, keep their keys and stay revoked; a new row has a new key. -/
structure Rows (w w' : World) : Prop where
  kept : ∀ s ∈ w.sessions, ∃ s' ∈ w'.sessions, s'.schema = s.schema ∧ s'.id = s.id
  from_ : ∀ s' ∈ w'.sessions, (∃ s ∈ w.sessions, s'.schema = s.schema ∧ s'.id = s.id ∧
    (s.revoked_at ≠ none → s'.revoked_at ≠ none)) ∨
    ∀ s ∈ w.sessions, s.schema = s'.schema → s.id ≠ s'.id
  admissions : w'.admissions = w.admissions

theorem Rows.same (hs : w.sessions = w'.sessions) (ha : w.admissions = w'.admissions) : Rows w w' :=
  ⟨fun s h => ⟨s, hs ▸ h, rfl, rfl⟩, fun s h => .inl ⟨s, hs ▸ h, rfl, rfl, id⟩, ha.symm⟩

theorem Rows.update {p : Session → Bool} {f : Session → Session}
    (hf : ∀ s, (f s).schema = s.schema ∧ (f s).id = s.id ∧ (s.revoked_at ≠ none → (f s).revoked_at ≠ none)) :
    Rows w (w.updateSessions p f) := by
  have hif : ∀ s, (if p s then f s else s).schema = s.schema ∧ (if p s then f s else s).id = s.id ∧
      (s.revoked_at ≠ none → (if p s then f s else s).revoked_at ≠ none) := by
    intro s
    split_ifs
    exacts [hf s, ⟨rfl, rfl, id⟩]
  refine ⟨fun s hs => ⟨_, List.mem_map_of_mem hs, (hif s).1, (hif s).2.1⟩, fun s' hs' => .inl ?_, rfl⟩
  obtain ⟨s, hs, rfl⟩ := List.mem_map.1 hs'
  exact ⟨s, hs, hif s⟩

theorem Rows.perform {write : Write} (h : perform pf w write = some w') : Rows w w' := by
  cases write with
  | insertSession l =>
    rw [AdminSessions.perform] at h
    split_ifs at h with hnew
    cases h
    refine ⟨fun s hs => ⟨s, List.mem_append_left _ hs, rfl, rfl⟩, fun s hs => ?_, rfl⟩
    rcases List.mem_append.1 hs with hs | hs
    · exact .inl ⟨s, hs, rfl, rfl, id⟩
    · obtain rfl := List.mem_singleton.1 hs
      refine .inr fun s hs hschema hid => hnew (List.any_eq_true.2 ⟨s, hs, ?_⟩)
      simp [hschema, hid]
  | promote => cases h; exact .update fun _ => ⟨rfl, rfl, id⟩
  | revoke => cases h; exact .update fun _ => ⟨rfl, rfl, fun _ => nofun⟩
  | setCodes | setPassword =>
    obtain ⟨users, rfl⟩ := updateAuthenticatedUser_eq h
    exact .same rfl rfl
  | revokeUser =>
    obtain ⟨p, rfl⟩ := revokeUser_eq h
    exact .update fun _ => ⟨rfl, rfl, fun _ => nofun⟩

/-- The session is revoked; `held` are the requests that had read a session before, `old` the
admissions there were. -/
structure Final (schema sid : String) (held : List (Request × Tenant × Session × Nat))
    (old : List Admission) (w : World) : Prop where
  row : ∃ s ∈ w.sessions, s.schema = schema ∧ s.id = sid
  dead : ∀ s ∈ w.sessions, s.schema = schema → s.id = sid → s.revoked_at ≠ none
  stages : ∀ stage ∈ w.stages, ∀ r t s now, stage.snapshot = some (r, t, s, now) →
    t.schema_name = schema → s.id = sid → (r, t, s, now) ∈ held
  admissions : ∀ a ∈ w.admissions, a.origin.schema_name = schema → a.session.id = sid →
    a ∈ old ∨ (a.request, a.origin, a.session, a.readAt) ∈ held

variable {held : List (Request × Tenant × Session × Nat)} {old : List Admission}

theorem Final.rows (h : Final schema sid held old w) (hr : Rows w w') (hs : w'.stages = w.stages) :
    Final schema sid held old w' := by
  obtain ⟨s, hmem, hschema, hid⟩ := h.row
  refine ⟨?_, fun s' hs' hk hi => ?_, hs ▸ h.stages, hr.admissions ▸ h.admissions⟩
  · obtain ⟨s', hs', hk, hi⟩ := hr.kept s hmem
    exact ⟨s', hs', hk.trans hschema, hi.trans hid⟩
  · rcases hr.from_ s' hs' with ⟨s₀, hs₀, hk₀, hi₀, hrev⟩ | hnew
    · exact hrev (h.dead s₀ hs₀ (hk₀.symm.trans hk) (hi₀.symm.trans hi))
    · exact absurd (hid.trans hi.symm) (hnew s hmem (hschema.trans hk.symm))

/-- A request gets hold of a session only by reading a row that is not revoked. -/
theorem snapshot_advance {stage : Stage} {r : Request} {t : Tenant} {s : Session} {now : Nat}
    (h : (advance pf w stage).2.snapshot = some (r, t, s, now)) :
    stage.snapshot = some (r, t, s, now) ∨ s ∈ w.sessions ∧ s.schema = t.schema_name ∧
    s.revoked_at = none := by
  cases stage with
  | arrived r' =>
    rcases advance_arrived pf w r' with heq | ⟨_, _, _, _, heq⟩ <;> rw [heq] at h
    · rcases readTenant_cases pf w r' with hread | ⟨_, _, _, hread⟩ <;> rw [hread] at h <;> cases h
    · cases h
  | tenant r' t' sid' =>
    change (readSession pf w r' t' sid').snapshot = _ at h
    rcases readSession_cases pf w r' t' sid' with hread | hread | ⟨s', hs', hread, hschema, hrev, _⟩ <;>
      rw [hread] at h <;> cases h
    exact .inr ⟨hs', hschema, hrev⟩
  | session r' t' s' now' =>
    rcases advance_session pf w r' t' s' now' with heq | ⟨_, _, heq⟩ <;> rw [heq] at h
    · cases h
    · exact .inl h
  | user r' t' s' now' u' => exact .inl h
  | resolved r' t' s' now' u' => cases h
  | writes ws =>
    cases ws with
    | nil => cases h
    | cons write ws => rcases advance_write pf w write ws with heq | ⟨_, _, heq⟩ <;> rw [heq] at h <;> cases h

/-- A statement leaves the rows as `Rows` says, or is the gate's. -/
theorem advance_rows (pf : Platform) (w : World) (stage : Stage) : Rows w (advance pf w stage).1 ∨
    ∃ r t s now u, stage = .resolved r t s now u ∧ (advance pf w stage).1 =
      { w with admissions := ⟨r, t, r.tenant.getD t, s, u, now⟩ :: w.admissions } := by
  have hsame : Rows w w := .same rfl rfl
  cases stage with
  | arrived r => rcases advance_arrived pf w r with heq | ⟨_, _, _, _, heq⟩ <;> rw [heq] <;> exact .inl hsame
  | tenant => exact .inl hsame
  | session r t s now =>
    rcases advance_session pf w r t s now with heq | ⟨_, _, heq⟩ <;> rw [heq] <;> exact .inl hsame
  | user r t s now u =>
    have hu := Rows.update (w := w) (p := fun x => x.schema = t.schema_name && x.id = s.id)
      (f := fun x => { x with last_seen_at := now })
      fun _ => ⟨rfl, rfl, id⟩
    exact .inl ⟨hu.kept, hu.from_, rfl⟩
  | resolved r t s now u =>
    simp only [AdminSessions.advance, AdminSessions.route]
    split
    · exact .inl hsame
    · exact .inl (.same rfl rfl)
    · exact .inl (.same rfl rfl)
    · exact .inl hsame
    · split_ifs
      · exact .inl hsame
      · split
        · exact .inl hsame
        · rename_i a hgate
          obtain rfl := gate_eq hgate
          exact .inr ⟨r, t, s, now, u, rfl, rfl⟩
  | writes ws =>
    cases ws with
    | nil => exact .inl hsame
    | cons write ws =>
      rcases advance_write pf w write ws with heq | ⟨w', hp, heq⟩ <;> rw [heq]
      exacts [.inl hsame, .inl (.perform hp)]

theorem Final.step {l : Label} (h : Final schema sid held old w) (hs : step pf w l = some w') :
    Final schema sid held old w' := by
  cases l with
  | ticks | editsUsers | editsTenants => cases hs; exact h.rows (.same rfl rfl) rfl
  | arrives r =>
    cases hs
    refine ⟨h.row, h.dead, fun stage hst => ?_, h.admissions⟩
    rcases List.mem_append.1 hst with hst | hst
    · exact h.stages stage hst
    · obtain rfl := List.mem_singleton.1 hst
      intro r t s now hsnap
      cases hsnap
  | advances i =>
    obtain ⟨stage, hi, rfl⟩ := Option.map_eq_some_iff.1 hs
    have hmem := List.mem_of_getElem? hi
    have hrows : Final schema sid held old { (advance pf w stage).1 with stages := w.stages } := by
      rcases advance_rows pf w stage with hr | ⟨r, t, s, now, u, rfl, heq⟩
      · exact h.rows ⟨hr.kept, hr.from_, hr.admissions⟩ rfl
      · rw [heq]
        refine ⟨h.row, h.dead, h.stages, fun a ha hk hid => ?_⟩
        rcases List.mem_cons.1 ha with rfl | ha
        · exact .inr (h.stages _ hmem r t s now rfl hk hid)
        · exact h.admissions a ha hk hid
    refine ⟨hrows.row, hrows.dead, fun st hst r t s now hsnap hk hid => ?_, hrows.admissions⟩
    rcases List.mem_or_eq_of_mem_set hst with hst | rfl
    · exact h.stages st hst r t s now hsnap hk hid
    · rcases snapshot_advance hsnap with hsnap | ⟨hmem', hschema, hrev⟩
      · exact h.stages stage hmem r t s now hsnap hk hid
      · exact absurd hrev (h.dead s hmem' (hschema.trans hk) hid)

/-- The session is one of those that a statement revokes. -/
def Write.Revokes (w : World) (s : Session) : Write → Prop
  | .revoke schema sid => s.schema = schema ∧ s.id = sid
  | .revokeUser schema user =>
    s.user_id = user.id ∧
      match user.role with
      | .operator => s.schema = schema
      | .admin => s.schema = "public" ∧ (w.publicAdmin user.id).isSome = true
  | _ => False

theorem Write.Revokes.dead {write : Write} {s : Session} (hc : Core pf w) (hs : s ∈ w.sessions)
    (hr : write.Revokes w s) :
    ∃ w', perform pf w write = some w' ∧ w'.admissions = w.admissions ∧
      ∀ x ∈ w'.sessions, x.schema = s.schema → x.id = s.id → x.revoked_at ≠ none := by
  -- Rows with one key are of one user.
  have huser : ∀ x ∈ w.sessions, x.schema = s.schema → x.id = s.id → x.user_id = s.user_id := by
    intro x hx hk hid
    obtain ⟨l, hl, _, hls, hli, hlu, _⟩ := (hc.sessions x hx).login
    obtain ⟨l', hl', _, hls', hli', hlu', _⟩ := (hc.sessions s hs).login
    obtain rfl := hc.unique l hl l' hl' ((hls.trans hk).trans hls'.symm) ((hli.trans hid).trans hli'.symm)
    exact hlu.symm.trans hlu'
  have hwhere : ∀ p : Session → Bool, (∀ x ∈ w.sessions, x.schema = s.schema → x.id = s.id → p x = true) →
      ∀ x ∈ (w.revokeWhere p).sessions, x.schema = s.schema → x.id = s.id → x.revoked_at ≠ none := by
    intro p hp x hx hk hid
    obtain ⟨y, hy, rfl⟩ := List.mem_map.1 hx
    split_ifs at hk hid ⊢ with hif
    · nofun
    · intro hnone
      exact hif (by simp [hp y hy hk hid, hnone])
  cases write with
  | insertSession | promote | setCodes | setPassword => exact absurd hr id
  | revoke schema sid =>
    obtain ⟨rfl, rfl⟩ := hr
    refine ⟨_, rfl, rfl, fun x hx hk hid => ?_⟩
    obtain ⟨y, hy, rfl⟩ := List.mem_map.1 hx
    split_ifs at hk hid ⊢ with hif
    · nofun
    · exact absurd (by simp [hk, hid]) hif
  | revokeUser schema user =>
    obtain ⟨hu, hr⟩ := hr
    rw [AdminSessions.perform, AdminSessions.revokeUser]
    rcases hrole : user.role with _ | _
    · rw [hrole] at hr
      obtain ⟨hpub, hsome⟩ := hr
      obtain ⟨admin, hadmin⟩ := Option.isSome_iff_exists.1 hsome
      rw [hadmin]
      refine ⟨_, rfl, rfl, hwhere _ fun x hx hk hid => ?_⟩
      simp [hk.trans hpub, (huser x hx hk hid).trans hu]
    · rw [hrole] at hr
      refine ⟨_, rfl, rfl, hwhere _ fun x hx hk hid => ?_⟩
      simp [hk.trans hr, (huser x hx hk hid).trans hu]

/-- Once a session is revoked (by its logout, or by a change of its user's password), the gate lets
through only those of its requests that had read it before. -/
theorem revocation_final {before after : List Label} {i : Nat} {write : Write} {ws : List Write}
    {s : Session} {a : Admission}
    (hbefore : run (AdminSessions.step pf) .init before = some w)
    (hi : w.stages[i]? = some (.writes (write :: ws)))
    (hs : s ∈ w.sessions) (hr : write.Revokes w s)
    (hafter : run (AdminSessions.step pf) w (.advances i :: after) = some w')
    (ha : a ∈ w'.admissions) (hschema : a.origin.schema_name = s.schema) (hid : a.session.id = s.id) :
    a ∈ w.admissions ∨ (a.request, a.origin, a.session, a.readAt) ∈ w.stages.filterMap (·.snapshot) := by
  have hinv : Inv pf w := run_inv (fun _ _ _ hs h => Inv.step h hs) hbefore Inv.init
  obtain ⟨v, hv, hadm, hdead⟩ := hr.dead hinv.toCore hs
  obtain ⟨u, hu, hafter⟩ := run_cons.1 hafter
  have hrows := Rows.perform hv
  have hstep : u = { v with stages := w.stages.set i (.writes ws) } := by
    simp only [AdminSessions.step, hi, Option.map_some, Option.some.injEq, advance, hv] at hu
    exact hu.symm
  have hfinal : Final s.schema s.id (w.stages.filterMap (·.snapshot)) w.admissions u := by
    subst hstep
    refine ⟨hrows.kept s hs, hdead, fun stage hst r t s' now hsnap _ _ => ?_, fun a ha _ _ =>
      .inl (hadm ▸ ha)⟩
    rcases List.mem_or_eq_of_mem_set hst with hst | rfl
    · exact List.mem_filterMap.2 ⟨stage, hst, hsnap⟩
    · cases hsnap
  exact (run_inv (fun _ _ _ hs h => Final.step h hs) hafter hfinal).admissions a ha hschema hid

/-- A logout that is about to revoke the session. -/
def Stage.logsOut (s : Session) : Stage → Bool
  | .writes (.revoke schema sid :: _) => s.schema = schema && s.id = sid
  | _ => false

theorem Stage.logsOut_eq {s : Session} {stage : Stage} (h : stage.logsOut s = true) :
    ∃ schema sid ws, stage = .writes (.revoke schema sid :: ws) ∧ (Write.revoke schema sid).Revokes w s := by
  unfold Stage.logsOut at h
  split at h
  · exact ⟨_, _, _, rfl, Bool.and_eq_true_iff.1 h |>.imp of_decide_eq_true of_decide_eq_true⟩
  · cases h

theorem revocation_final_visit : ∃ w w' s, run (AdminSessions.step plainPlatform) .init visit = some w ∧
    s ∈ w.sessions ∧
    run (AdminSessions.step plainPlatform) w
    [.advances 3, .arrives (request (.admin "" "" "") "/admin/" "GET"), .advances 4,
      .advances 4] = some w' ∧
    ∀ a ∈ w'.admissions, a.origin.schema_name = s.schema → a.session.id = s.id →
      a ∈ w.admissions ∨ (a.request, a.origin, a.session, a.readAt) ∈ w.stages.filterMap (·.snapshot) := by
  have hany : (run (AdminSessions.step plainPlatform) .init visit).any (fun w =>
      w.sessions.any fun s => (w.stages[3]?).any (·.logsOut s)) = true := by decide +kernel
  obtain ⟨w, hrun, hw⟩ := (Option.any_eq_true _ _).1 hany
  obtain ⟨s, hs, hw⟩ := List.any_eq_true.1 hw
  obtain ⟨stage, hi, hstage⟩ := (Option.any_eq_true _ _).1 hw
  obtain ⟨schema, sid, ws, rfl, hr⟩ := Stage.logsOut_eq (w := w) hstage
  have hafter : ((run (AdminSessions.step plainPlatform) .init visit).bind fun w =>
    run (AdminSessions.step plainPlatform) w
      [.advances 3, .arrives (request (.admin "" "" "") "/admin/" "GET"), .advances 4,
            .advances 4]).isSome = true := by
    decide +kernel
  rw [hrun, Option.bind_some] at hafter
  obtain ⟨w', hw'⟩ := Option.isSome_iff_exists.1 hafter
  exact ⟨w, w', s, hrun, hs, hw', fun a ha hk hid => revocation_final hrun hi hs hr hw' ha hk hid⟩

end Revocation

end AdminSessions
