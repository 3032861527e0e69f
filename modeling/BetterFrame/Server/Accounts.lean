import Mathlib.Data.List.Basic
import Mathlib.Logic.Function.Basic

/-!
# User accounts

The `users` tables, and the repository functions that change them (`updateUser`,
`updatePlatformAdmin` and the mirroring of platform administrators in
`shared/db/platform-admin.ts`). A database is seen from one user name: `users` has the row of that
name in each schema. An operator has a row in one tenant's schema; an administrator has one in
`public` and a copy in the schema of every tenant.
-/

namespace Accounts

inductive Role where
  | admin
  | operator
deriving DecidableEq

/-- A row of `users`, with the columns that signing in reads and writes. -/
structure User where
  id : String
  role : Role
  is_active : Bool
  password_hash : String
  recovery_codes_hashed : List String
  failed_login_count : Nat
  locked_until : Option Nat
deriving DecidableEq

/-- The columns that signing in changes; a column that is `none` is not part of the patch. -/
structure UserPatch where
  recovery_codes_hashed : Option (List String) := none
  failed_login_count : Option Nat := none
  locked_until : Option (Option Nat) := none

/-- Fields that the patch does not name stay. -/
def User.patched (u : User) (patch : UserPatch) : User :=
  { u with
    recovery_codes_hashed := patch.recovery_codes_hashed.getD u.recovery_codes_hashed
    failed_login_count := patch.failed_login_count.getD u.failed_login_count
    locked_until := patch.locked_until.getD u.locked_until }

/-- The rows of one user name. -/
structure Db where
  users : String → Option User
  /-- The schemas of the tenants. -/
  tenants : List String

/-- `mirrorPlatformAdmins`: the row of a tenant schema keeps its id, and one that is missing is inserted. -/
def mirrored (source : User) (target : Option User) : User :=
  { source with id := (target.map User.id).getD source.id }

def updateUser (schema id : String) (patch : UserPatch) (db : Db) : Db :=
  { db with users := Function.update db.users schema ((db.users schema).map fun u =>
    if u.id = id then u.patched patch else u) }

/-- One transaction. -/
def updatePlatformAdmin (id : String) (patch : UserPatch) (db : Db) : Option Db :=
  match db.users "public" with
  | none => none
  | some admin =>
    if admin.id = id ∧ admin.role = .admin then
      some { db with users := fun schema =>
        if schema = "public" then some (admin.patched patch)
        else if schema ∈ db.tenants then some (mirrored (admin.patched patch) (db.users schema))
        else db.users schema }
    else none

/-- An administrator is updated in both copies, another user in the tenant's table. -/
def updateAuthenticatedUser (schema : String) (user : User) (patch : UserPatch) (db : Db) : Option Db :=
  if user.role = .admin then updatePlatformAdmin user.id patch db
  else some (updateUser schema user.id patch db)

/-- The schemas in which the rows of a user stand, of which `home` is an operator's. -/
def places (db : Db) (home : String) (role : Role) : List String :=
  if role = .admin then "public" :: db.tenants else [home]

/-- Every row of the user is `u`. -/
def Stored (home : String) (u : User) (db : Db) : Prop :=
  ∀ schema ∈ places db home u.role, db.users schema = some u

section Stored

variable {home schema : String} {u user : User} {patch : UserPatch} {db : Db}

/-- A patch reaches every row of the user. -/
theorem Stored.update (h : Stored home u db) (patch : UserPatch)
    (hplace : schema ∈ places db home u.role) (hid : user.id = u.id)
    (hrole : user.role = u.role) :
    ∃ db', updateAuthenticatedUser schema user patch db = some db' ∧ Stored home (u.patched patch) db' ∧
      db'.tenants = db.tenants := by
  unfold updateAuthenticatedUser
  rw [hrole, hid]
  by_cases hadmin : u.role = .admin
  · have hplaces : places db home u.role = "public" :: db.tenants := if_pos hadmin
    have hpublic := h "public" (by simp [hplaces])
    rw [if_pos hadmin, updatePlatformAdmin, hpublic]
    dsimp only
    rw [if_pos ⟨rfl, hadmin⟩]
    refine ⟨_, rfl, fun place hmem => ?_, rfl⟩
    have hmem : place ∈ "public" :: db.tenants := hplaces ▸ hmem
    show (if place = "public" then some (u.patched patch)
      else if place ∈ db.tenants then some (mirrored (u.patched patch) (db.users place))
      else db.users place) = some (u.patched patch)
    by_cases hpub : place = "public"
    · rw [if_pos hpub]
    · have hmem := (List.mem_cons.1 hmem).resolve_left hpub
      rw [if_neg hpub, if_pos hmem, h place (by simp [hplaces, hmem])]
      rfl
  · have hplaces : places db home u.role = [home] := if_neg hadmin
    rw [hplaces, List.mem_singleton] at hplace
    subst hplace
    rw [if_neg hadmin]
    refine ⟨_, rfl, fun place hmem => ?_, rfl⟩
    have hmem : place ∈ [schema] := hplaces ▸ hmem
    rw [List.mem_singleton] at hmem
    subst hmem
    have hrow := h place (by simp [hplaces])
    show Function.update db.users place _ place = _
    rw [Function.update_self, hrow, Option.map_some, if_pos rfl]

end Stored

end Accounts
