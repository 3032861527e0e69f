import BetterFrame.Lib.Run
import BetterFrame.Server.PairingConfirm

/-!
# The pairing protocol

One pairing code under any interleaving of its devices, its administrators and the clock. The
transactions are single steps; a claim takes three, and anything may happen between them. The `log`
of a state has the committed transactions that wrote the code's row, oldest first, and the row is
the log replayed (`Inv.row`). A claim is known by the length of the log when it read the row, so
that `s.log.take claim.readAt` is what had happened to the code by then.
-/

namespace Pairing

open Text Transaction

/-- A confirmation that consumed the code, with the database before and after it. -/
structure Confirmation where
  at_ : Nat
  fresh : Fresh
  input : PairingConfirmInput
  kioskId : String
  before : Db
  after : Db

/-- What has changed the row of the code. -/
inductive Event where
  | initiated (now : Nat) (input : PairingInitiateInput) (secret : String)
  | confirmed (c : Confirmation)
  | acknowledged (now : Nat)

def Event.isConfirmed : Event → Bool
  | .confirmed _ => true
  | _ => false

/-- A call of `claimPairing` that has read the row, and, once it awaits the kiosk, when it looked at
the clock and what it is about to deliver. -/
structure Claim where
  secret : Option String
  readAt : Nat
  row : Option PairingCode
  delivery : Option (Nat × Delivery)

/-- A call of `claimPairing` that has returned. -/
structure Response where
  claim : Claim
  checkedAt : Nat
  kiosk : Option Kiosk
  result : PairingClaimResult

/-- The database, the claims under way and the answers that were given. -/
structure State where
  now : Nat
  db : Db
  log : List Event
  claims : List Claim
  responses : List Response

def init (schemas : String → Schema) : State := ⟨0, ⟨none, schemas⟩, [], [], []⟩

/-- A call, or the next statement of a claim. -/
inductive Action where
  | initiate (input : PairingInitiateInput) (secret : String)
  | confirm (input : PairingConfirmInput) (fresh : Fresh) (budget : Option Nat)
  | claimRead (secret : Option String)
  | claimCheck (i : Nat)
  | claimKiosk (i : Nat)
  | acknowledge (kioskId schemaName : String) (secret : Option String) (budget : Option Nat)
  | setEnabled (schema id : String) (enabled : Bool)
  | deleteKiosk (schema id : String)
  /-- Whatever else is written to the tables of the tenants. -/
  | admin (schemas : String → Schema)
  | elapse (ms : Nat)

def Db.modifyKiosks (db : Db) (schema : String) (f : List Kiosk → List Kiosk) : Db :=
  let tables := db.schemas schema
  { db with schemas := Function.update db.schemas schema { tables with kiosks := f tables.kiosks } }

section Step

variable (K : Crypto) (code : String)

/-- The transaction `confirmPairing`, which is in the log if it consumed the code. -/
def State.confirm (s : State) (input : PairingConfirmInput) (fresh : Fresh) (budget : Option Nat) : State :=
  match confirmPairing K s.now fresh input budget s.db with
  | (.error _, db) => { s with db }
  | (.ok (kioskId, _), db) =>
    if s.db.pairing_code.any fun pc => pc.consumed_at.isNone then
      { s with db, log := s.log ++ [.confirmed ⟨s.now, fresh, input, kioskId, s.db, db⟩] }
    else { s with db }

def State.acknowledge (s : State) (kioskId schemaName : String) (secret : Option String)
    (budget : Option Nat) :
    State :=
  match acknowledgePairing K s.now kioskId schemaName secret budget s.db with
  | (.error _, db) => { s with db }
  | (.ok _, db) => { s with db, log := s.log ++ [.acknowledged s.now] }

/-- The claim `i`, which has read the row, goes on to its answer or to the await of the kiosk. -/
def State.claimCheck (s : State) (i : Nat) (claim : Claim) : State :=
  match Pairing.claimCheck K s.now claim.secret claim.row with
  | .inl result =>
    { s with claims := s.claims.eraseIdx i, responses := s.responses ++ [⟨claim, s.now, none, result⟩] }
  | .inr d => { s with claims := s.claims.set i { claim with delivery := some (s.now, d) } }

/-- The claim `i` finds the kiosk, or none, and answers. -/
def State.claimKiosk (s : State) (i : Nat) (claim : Claim) (checkedAt : Nat) (d : Delivery) : State :=
  let kiosk := findKiosk s.db d.schema d.kioskId
  { s with claims := s.claims.eraseIdx i, responses := s.responses ++
    [⟨claim, checkedAt, kiosk, claimAnswer d kiosk⟩] }

def step (s : State) : Action → Option State
  | .initiate input secret =>
    (initiatePairing K code input s.now secret s.db).map fun db =>
      { s with db, log := s.log ++ [.initiated s.now input secret] }
  | .confirm input fresh budget => if input.code = code then some (s.confirm K input fresh budget) else none
  | .claimRead secret =>
    some { s with claims := s.claims ++ [⟨secret, s.log.length, s.db.pairing_code, none⟩] }
  | .claimCheck i =>
    match s.claims[i]? with
    | some claim => if claim.delivery.isNone then some (s.claimCheck K i claim) else none
    | none => none
  | .claimKiosk i =>
    match s.claims[i]? with
    | some claim => claim.delivery.map fun (checkedAt, d) => s.claimKiosk i claim checkedAt d
    | none => none
  | .acknowledge kioskId schemaName secret budget => some (s.acknowledge K kioskId schemaName secret budget)
  | .setEnabled schema id enabled =>
    some { s with db := s.db.modifyKiosks schema (·.map fun k => if k.id = id then { k with enabled }
      else k) }
  | .deleteKiosk schema id => some { s with db := s.db.modifyKiosks schema (·.filter (·.id ≠ id)) }
  | .admin schemas => some { s with db := { s.db with schemas } }
  | .elapse ms => some { s with now := s.now + ms }

/-! ### The log -/

/-- What a committed transaction does to the row. -/
def Event.apply (row : Option PairingCode) : Event → Option PairingCode
  | .initiated now input secret => some (initiatedRow K code input now secret)
  | .confirmed c =>
    row.map fun pc => pc.consume c.at_ c.kioskId (claimedExtras K c.at_ c.fresh c.input pc.extras)
  | .acknowledged now => row.map fun pc => { pc with extras := acknowledgedExtras pc.extras now }

/-- The code's row as its history leads to it. -/
def replay (log : List Event) : Option PairingCode := log.foldl (Event.apply K code) none

/-- A code is initiated, then consumed, then acknowledged any number of times. -/
inductive Ordered : List Event → Prop where
  | nil : Ordered []
  | initiated (now : Nat) (input : PairingInitiateInput) (secret : String) :
    Ordered [.initiated now input secret]
  | confirmed (now : Nat) (input : PairingInitiateInput) (secret : String) (c : Confirmation)
    (acks : List Nat) :
    Ordered (.initiated now input secret :: .confirmed c :: acks.map .acknowledged)

end Step

section Replay

variable {K : Crypto} {code : String} {log : List Event} {pc : PairingCode}

theorem replay_snoc {e : Event} : replay K code (log ++ [e]) = e.apply K code (replay K code log) := by
  simp [replay]

theorem Ordered.take (h : Ordered log) (n : Nat) : Ordered (log.take n) := by
  rcases n with _ | _ | n
  · exact .nil
  · cases h with
    | nil => exact .nil
    | initiated => exact .initiated ..
    | confirmed => exact .initiated ..
  · cases h with
    | nil => exact .nil
    | initiated => exact .initiated ..
    | confirmed now input secret c acks =>
      simp only [List.take_succ_cons, ← List.map_take]
      exact .confirmed ..

/-- What an acknowledgement leaves alone. -/
structure Extras.Kept (extras extras' : Extras) : Prop where
  demo : extras'.demo = extras.demo
  schema : extras'.tenant_schema = extras.tenant_schema
  request : extras'.confirmation_request = extras.confirmation_request

/-- The row of a code that is initiated and consumed. -/
def consumedRow (K : Crypto) (code : String) (now : Nat) (input : PairingInitiateInput) (secret : String)
    (c : Confirmation) : PairingCode :=
  let pc := initiatedRow K code input now secret
  pc.consume c.at_ c.kioskId (claimedExtras K c.at_ c.fresh c.input pc.extras)

theorem replay_acks (pc : PairingCode) (acks : List Nat) :
    ∃ extras, (acks.map Event.acknowledged).foldl (Event.apply K code) (some pc) = some { pc with extras } ∧
      pc.extras.Kept extras ∧ (acks ≠ [] → extras.acknowledged_at.isSome) := by
  induction acks generalizing pc with
  | nil => exact ⟨pc.extras, rfl, ⟨rfl, rfl, rfl⟩, fun h => absurd rfl h⟩
  | cons t acks ih =>
    obtain ⟨extras, hrow, hkept, hacks⟩ := ih { pc with extras := acknowledgedExtras pc.extras t }
    refine ⟨extras, hrow, ⟨hkept.demo, hkept.schema, hkept.request⟩, fun _ => ?_⟩
    rcases acks with _ | ⟨t', acks⟩
    · cases hrow
      rfl
    · exact hacks (List.cons_ne_nil _ _)

theorem replay_confirmed (K : Crypto) (code : String) (now : Nat) (input : PairingInitiateInput)
    (secret : String) (c : Confirmation) (acks : List Nat) :
    ∃ extras, replay K code (.initiated now input secret :: .confirmed c :: acks.map .acknowledged) =
        some { consumedRow K code now input secret c with extras } ∧
      (consumedRow K code now input secret c).extras.Kept extras ∧
      (acks ≠ [] → extras.acknowledged_at.isSome) :=
  replay_acks _ acks

theorem Ordered.eq_nil (h : Ordered log) (hrow : replay K code log = none) : log = [] := by
  cases h with
  | nil => rfl
  | initiated => cases hrow
  | confirmed now input secret c acks =>
    obtain ⟨_, hsome, -⟩ := replay_confirmed K code now input secret c acks
    rw [hsome] at hrow
    cases hrow

theorem Ordered.of_unconsumed (h : Ordered log) (hrow : replay K code log = some pc)
    (hpc : pc.consumed_at = none) :
    ∃ now input secret, log = [.initiated now input secret] := by
  cases h with
  | nil => cases hrow
  | initiated now input secret => exact ⟨now, input, secret, rfl⟩
  | confirmed now input secret c acks =>
    obtain ⟨_, hsome, -⟩ := replay_confirmed K code now input secret c acks
    rw [hsome] at hrow
    cases hrow
    cases hpc

theorem Ordered.of_consumed (h : Ordered log) (hrow : replay K code log = some pc)
    (hpc : pc.consumed_at.isSome ∨ pc.consumed_by_kiosk_id.isSome) :
    ∃ now input secret c, ∃ acks : List Nat, log = .initiated now input secret :: .confirmed c ::
    acks.map .acknowledged := by
  cases h with
  | nil => cases hrow
  | initiated now input secret =>
    cases hrow
    simp [initiatedRow] at hpc
  | confirmed now input secret c acks => exact ⟨now, input, secret, c, acks, rfl⟩

/-- There is at most one confirmation in the log. -/
theorem Ordered.confirmed_once (h : Ordered log) : (log.filter Event.isConfirmed).length ≤ 1 := by
  cases h with
  | nil => simp
  | initiated => simp [Event.isConfirmed]
  | confirmed => simp [Event.isConfirmed, List.filter_cons, List.filter_map, Function.comp_def]

theorem Ordered.eq_of_confirmed {c : Confirmation} (h : Ordered log) (hc : .confirmed c ∈ log) :
    ∃ now input secret, ∃ acks : List Nat, log = .initiated now input secret :: .confirmed c ::
    acks.map .acknowledged := by
  cases h with
  | nil => cases hc
  | initiated => simp at hc
  | confirmed now input secret c' acks =>
    obtain rfl : c = c' := by simpa using hc
    exact ⟨now, input, secret, acks, rfl⟩

end Replay

/-! ### Claims -/

section Claims

variable {K : Crypto} {code : String} {log : List Event} {now : Nat} {secret : Option String}
  {row : Option PairingCode} {d : Delivery}

/-- What a claim that goes on to await the kiosk has found in the row. -/
theorem claimCheck_inr (h : claimCheck K now secret row = .inr d) :
    ∃ pc, row = some pc ∧
      ((truthy pc.extras.polling_secret_hash).isSome → matchesSecret K secret pc.extras.polling_secret_hash) ∧
      pc.extras.acknowledged_at = none ∧ pc.consumed_at.isSome ∧
      (pc.extras.claim_expires_at.getD pc.expires_at).remaining now = some d.remaining ∧ 0 < d.remaining ∧
      ∃ kioskKey encryptKey kioskId, readClaim K pc.extras = some (kioskKey, encryptKey) ∧
        truthy kioskKey = some d.kioskKey ∧ truthy pc.consumed_by_kiosk_id = some kioskId ∧
        d = ⟨d.remaining, kioskId, pc.extras.tenant_schema.getD "public", d.kioskKey, encryptKey,
        pc.extras.demo⟩ := by
  unfold claimCheck at h
  rcases row with _ | pc
  · cases h
  refine ⟨pc, rfl, ?_⟩
  dsimp only at h
  split at h
  · cases h
  next hsecret =>
  split at h
  · cases h
  next hack =>
  split at h
  · cases h
  next remaining hremaining =>
  split at h
  · cases h
  next hpos =>
  split at h
  · cases h
  next hcons =>
  have hcons : pc.consumed_at.isSome := by simpa [Option.isSome_iff_ne_none] using hcons
  split at h
  · cases h
  next kioskKey encryptKey hread =>
  split at h
  · next key id hkey hid =>
    cases h
    refine ⟨fun hs => ?_, by simpa using hack, hcons, by simpa [hcons] using hremaining, Int.not_le.1 hpos,
      kioskKey, encryptKey, id, hread, hkey, hid, rfl⟩
    simpa [hs] using hsecret
  · cases h

/-- The credentials that a confirmation puts into the row are read back. -/
theorem readClaim_claimedExtras (hK : K.Lawful) {fresh : Fresh} {input : PairingConfirmInput}
    {extras : Extras} :
    readClaim K (claimedExtras K now fresh input extras) = some (some fresh.kioskKey,
    some fresh.encryptKey) := by
  simp only [readClaim, claimedExtras, hK.decrypt_encrypt, Option.bind_some, claimText, Json.parse_stringify]
  rfl

/-- A claim that awaits the kiosk has read the row between the confirmation and the first
acknowledgement, in time, with the polling secret; what it delivers is what was confirmed. -/
theorem claimCheck_replay (hK : K.Lawful) (hlog : Ordered log)
    (h : claimCheck K now secret (replay K code log) = .inr d) :
    ∃ at_ input text c, log = [.initiated at_ input text, .confirmed c] ∧ d.kioskKey = c.fresh.kioskKey ∧
      d.encryptKey = some c.fresh.encryptKey ∧ d.kioskId = c.kioskId ∧ d.schema = c.input.schema ∧
      (input.secureClaim → text ≠ "" → secret = some text) ∧ now < c.at_ + DELIVERY_GRACE_MS := by
  obtain ⟨pc, hrow, hsecret, hack, hcons, hremaining, hpos, key, ekey, id, hread, hkey, hid, hd⟩ :=
    claimCheck_inr h
  obtain ⟨at_, input, text, c, acks, rfl⟩ := hlog.of_consumed hrow (.inl hcons)
  obtain ⟨extras, hreplay, -, hacked⟩ := replay_confirmed K code at_ input text c acks
  have hacks : acks = [] := by
    by_contra hne
    have hsome := hacked hne
    obtain rfl := Option.some.inj (hrow.symm.trans hreplay)
    rw [show extras.acknowledged_at = none from hack] at hsome
    cases hsome
  subst hacks
  obtain rfl : consumedRow K code at_ input text c = pc := Option.some.inj hrow
  obtain ⟨rfl, rfl⟩ := Prod.mk.inj (Option.some.inj ((readClaim_claimedExtras hK).symm.trans hread))
  obtain ⟨hid, -⟩ := truthy_eq_some.1 hid
  obtain ⟨hkey, -⟩ := truthy_eq_some.1 hkey
  refine ⟨at_, input, text, c, rfl, (Option.some.inj hkey).symm, ?_, ?_, ?_, fun hsecure htext => ?_, ?_⟩
  · rw [hd]
  · rw [hd]
    exact (Option.some.inj hid).symm
  · rw [hd]
    rfl
  · have hhash : (consumedRow K code at_ input text c).extras.polling_secret_hash =
        some (secretHash K text) := by
      have htruthy : truthy (some text) = some text := truthy_eq_some.2 ⟨rfl, htext⟩
      simp [consumedRow, PairingCode.consume, claimedExtras, initiatedRow, PairingInitiateInput.pollingSecret,
        hsecure, htruthy]
    rw [hhash] at hsecret
    have htruthy : truthy (some (secretHash K text)) = some (secretHash K text) :=
      truthy_eq_some.2 ⟨rfl, secretHash_ne hK text⟩
    exact matchesSecret_hash hK (hsecret (by rw [htruthy]; rfl))
  · have hexpiry : ((c.at_ + DELIVERY_GRACE_MS : Nat) : Int) - now = d.remaining := Option.some.inj hremaining
    omega

/-- A device that polls in time and with its secret gets the credentials, if the kiosk is still there. -/
theorem claimCheck_consumedRow {K : Crypto} (hK : K.Lawful) {code text : String} {at_ now : Nat}
    {input : PairingInitiateInput} {c : Confirmation} {secret : Option String} (hid : c.kioskId ≠ "")
    (hsecret : input.secureClaim → text ≠ "" → secret = some text) (hlt : now < c.at_ + DELIVERY_GRACE_MS) :
    claimCheck K now secret (some (consumedRow K code at_ input text c)) =
      .inr ⟨(c.at_ + DELIVERY_GRACE_MS : Nat) - now, c.kioskId, c.input.schema, c.fresh.kioskKey,
        some c.fresh.encryptKey, c.input.demo⟩ := by
  have hhash : (consumedRow K code at_ input text c).extras.polling_secret_hash =
      (truthy (input.pollingSecret text)).map (secretHash K) := rfl
  have hmatch : ((truthy (consumedRow K code at_ input text c).extras.polling_secret_hash).isSome &&
      !matchesSecret K secret (consumedRow K code at_ input text c).extras.polling_secret_hash) = false := by
    rw [hhash]
    rcases htext : truthy (input.pollingSecret text) with _ | text'
    · rfl
    · obtain ⟨hpoll, hne⟩ := truthy_eq_some.1 htext
      unfold PairingInitiateInput.pollingSecret at hpoll
      split at hpoll <;> cases hpoll
      next hsecure =>
      rw [hsecret hsecure hne, Option.map_some, matchesSecret_self K hne, Bool.not_true, Bool.and_false]
  have hread : readClaim K (consumedRow K code at_ input text c).extras =
      some (some c.fresh.kioskKey, some c.fresh.encryptKey) := readClaim_claimedExtras hK
  have hkey : truthy (some c.fresh.kioskKey) = some c.fresh.kioskKey :=
    truthy_eq_some.2 ⟨rfl, by simp [Fresh.kioskKey]⟩
  have hkiosk : truthy (consumedRow K code at_ input text c).consumed_by_kiosk_id = some c.kioskId :=
    truthy_eq_some.2 ⟨rfl, hid⟩
  have hremaining : (Stamp.at (c.at_ + DELIVERY_GRACE_MS)).remaining now =
      some ((c.at_ + DELIVERY_GRACE_MS : Nat) - (now : Int)) := rfl
  have hpos : ¬ ((c.at_ + DELIVERY_GRACE_MS : Nat) : Int) - now ≤ 0 := by omega
  rw [claimCheck]
  simp only [hmatch, hread, hkey, hkiosk]
  simp only [consumedRow, PairingCode.consume, claimedExtras, initiatedRow, hremaining, Option.isSome_some,
    Option.isSome_none, Option.isNone_some, Option.getD_some, if_true, if_neg hpos,
      Bool.false_eq_true, if_false]

/-- An answer without an await of the kiosk delivers nothing. -/
theorem claimCheck_inl {result : PairingClaimResult} (h : claimCheck K now secret row = .inl result) :
    result.status ≠ .claimed := by
  have hbare : ∀ status seconds, status ≠ .claimed →
      (PairingClaimResult.bare status seconds).status ≠ .claimed :=
    fun _ _ h => h
  unfold claimCheck at h
  rcases row with _ | pc
  · cases h
    exact hbare _ _ (by decide)
  dsimp only at h
  split at h
  · cases h
    exact hbare _ _ (by decide)
  split at h
  · cases h
    exact hbare _ _ (by decide)
  split at h
  · cases h
    exact hbare _ _ (by decide)
  split at h
  · cases h
    exact hbare _ _ (by decide)
  split at h
  · cases h
    exact hbare _ _ (by decide)
  split at h
  · cases h
    exact hbare _ _ (by decide)
  split at h <;> cases h
  exact hbare _ _ (by decide)

theorem claimAnswer_claimed {kiosk : Option Kiosk} (h : (claimAnswer d kiosk).status = .claimed) :
    (claimAnswer d kiosk).kioskId = some d.kioskId ∧ (claimAnswer d kiosk).kioskKey = some d.kioskKey ∧
      (claimAnswer d kiosk).encryptKey = d.encryptKey ∧ ∃ k, kiosk = some k ∧ k.enabled = true := by
  rcases kiosk with _ | k
  · cases h
  · rcases henabled : k.enabled with _ | _
    · simp [claimAnswer, henabled, PairingClaimResult.bare] at h
    · simp [claimAnswer, henabled]

end Claims

/-! ### The invariant -/

/-- The claim has read the row that the log had then, and delivers by it. -/
structure Claim.Sound (K : Crypto) (code : String) (log : List Event) (claim : Claim) : Prop where
  le : claim.readAt ≤ log.length
  row : claim.row = replay K code (log.take claim.readAt)
  delivery : ∀ now d, claim.delivery = some (now, d) → claimCheck K now claim.secret claim.row = .inr d

/-- The answer is that to a sound claim, for the rows it has read. -/
structure Response.Sound (K : Crypto) (code : String) (log : List Event) (r : Response) : Prop where
  claim : r.claim.Sound K code log
  claimed : r.result.status = .claimed →
    ∃ d, claimCheck K r.checkedAt r.claim.secret r.claim.row = .inr d ∧ r.result = claimAnswer d r.kiosk

/-- The row is what the log makes it, and claims and answers have read what the log says there was.
-/
structure Inv (K : Crypto) (code : String) (s : State) : Prop where
  ordered : Ordered s.log
  row : s.db.pairing_code = replay K code s.log
  confirmed : ∀ c, .confirmed c ∈ s.log → ∃ pc, Consumed K c.at_ c.fresh c.input pc c.kioskId c.before c.after
  claims : ∀ claim ∈ s.claims, claim.Sound K code s.log
  responses : ∀ r ∈ s.responses, r.Sound K code s.log

section Inv

variable {K : Crypto} {code : String} {s s' : State} {log : List Event}

theorem Claim.Sound.append {claim : Claim} (h : claim.Sound K code log) (log' : List Event) :
    claim.Sound K code (log ++ log') := by
  refine ⟨by have := h.le; simp; omega, ?_, h.delivery⟩
  rw [List.take_append_of_le_length h.le]
  exact h.row

theorem Response.Sound.append {r : Response} (h : r.Sound K code log) (log' : List Event) :
    r.Sound K code (log ++ log') := ⟨h.claim.append log', h.claimed⟩

theorem Inv.init (schemas : String → Schema) : Inv K code (init schemas) where
  ordered := .nil
  row := rfl
  confirmed := fun _ h => by cases h
  claims := fun _ h => by cases h
  responses := fun _ h => by cases h

/-- A step that leaves the row, the claims and the responses alone. -/
theorem Inv.frame (h : Inv K code s) {db : Db} (hdb : db.pairing_code = s.db.pairing_code) (now : Nat) :
    Inv K code { s with db, now } :=
  ⟨h.ordered, hdb.trans h.row, h.confirmed, h.claims, h.responses⟩

/-- A committed transaction that writes the row. -/
theorem Inv.commit (h : Inv K code s) {e : Event} {db : Db} (hordered : Ordered (s.log ++ [e]))
    (hdb : db.pairing_code = e.apply K code s.db.pairing_code)
    (hconfirmed : ∀ c, e = .confirmed c →
      ∃ pc, Consumed K c.at_ c.fresh c.input pc c.kioskId c.before c.after) :
    Inv K code { s with db, log := s.log ++ [e] } where
  ordered := hordered
  row := by rw [replay_snoc, ← h.row]; exact hdb
  confirmed := fun c hc => by
    rcases List.mem_append.1 hc with hc | hc
    · exact h.confirmed c hc
    · exact hconfirmed c (List.mem_singleton.1 hc).symm
  claims := fun claim hclaim => (h.claims claim hclaim).append _
  responses := fun r hr => (h.responses r hr).append _

theorem Inv.initiate (h : Inv K code s) {input : PairingInitiateInput} {secret : String} {db : Db}
    (hdb : initiatePairing K code input s.now secret s.db = some db) :
    Inv K code { s with db, log := s.log ++ [.initiated s.now input secret] } := by
  unfold initiatePairing at hdb
  split at hdb
  · cases hdb
  next hnone =>
  obtain rfl := Option.some.inj hdb
  have hlog := h.ordered.eq_nil (h.row.symm.trans hnone)
  refine h.commit ?_ rfl (fun c hc => by cases hc)
  rw [hlog]
  exact .initiated ..

theorem Inv.confirm (h : Inv K code s) (input : PairingConfirmInput) (fresh : Fresh) (budget : Option Nat) :
    Inv K code (s.confirm K input fresh budget) := by
  unfold State.confirm
  split
  · next e db hres => exact h.frame (by rw [transact_error hres]) s.now
  · next id name db hres =>
    obtain ⟨pc, hpc, hcase⟩ := confirmPairing_ok hres
    rcases hcase with ⟨hcons, -, -, -, hdb, -⟩ | ⟨hcons, hconsumed⟩
    · have hnone : pc.consumed_at ≠ none := Option.isSome_iff_ne_none.1 hcons
      rw [if_neg (by simp [hpc, hnone])]
      exact h.frame (by rw [hdb]) s.now
    · rw [if_pos (by simp [hpc, hcons])]
      obtain ⟨now, i, secret, hlog⟩ := h.ordered.of_unconsumed (h.row.symm.trans hpc) hcons
      refine h.commit ?_ ?_ ?_
      · rw [hlog]
        exact .confirmed now i secret _ []
      · rw [hconsumed.code, hpc]
        rfl
      · intro c hc
        obtain rfl := Event.confirmed.inj hc
        exact ⟨pc, hconsumed⟩

theorem acknowledgePairing_ok {now : Nat} {kioskId schemaName : String} {secret : Option String}
    {budget : Option Nat}
    {db db' : Db} {u : Unit} (h : acknowledgePairing K now kioskId schemaName secret budget db =
      (.ok u, db')) :
    ∃ pc, db.pairing_code = some pc ∧ pc.consumed_by_kiosk_id = some kioskId ∧
      db'.pairing_code = some { pc with extras := acknowledgedExtras pc.extras now } := by
  obtain ⟨b, h⟩ := transact_ok h
  obtain ⟨found, t, hq, h⟩ := EStateM.bind_eq_ok h
  obtain ⟨hf, hdb⟩ := query_ok hq
  have hdb : t.db = db := hdb
  rcases found with _ | pc
  · cases h
  dsimp only at h
  split at h
  · cases h
  next hdevice =>
  split at h
  · cases h
  have h := exec_ok h
  have h := Except.ok.inj h
  have hrow : t.db.pairing_code = some pc := by rw [hdb]; exact hf.symm
  rw [hrow] at h
  exact ⟨pc, hf.symm, by simpa using (not_or.1 hdevice).1, (congrArg Db.pairing_code h).symm⟩

theorem Inv.acknowledge (h : Inv K code s) (kioskId schemaName : String) (secret : Option String)
    (budget : Option Nat) : Inv K code (s.acknowledge K kioskId schemaName secret budget) := by
  unfold State.acknowledge
  split
  · next e db hres => exact h.frame (by rw [transact_error hres]) s.now
  · next u db hres =>
    obtain ⟨pc, hpc, hid, hdb⟩ := acknowledgePairing_ok hres
    obtain ⟨now, i, text, c, acks, hlog⟩ :=
      h.ordered.of_consumed (h.row.symm.trans hpc) (.inr (Option.isSome_of_eq_some hid))
    refine h.commit ?_ ?_ (fun c hc => by cases hc)
    · rw [hlog]
      have hacks : (acks ++ [s.now]).map Event.acknowledged = acks.map .acknowledged ++
          [.acknowledged s.now] := by simp
      show Ordered (.initiated now i text :: .confirmed c ::
        (acks.map .acknowledged ++ [.acknowledged s.now]))
      rw [← hacks]
      exact .confirmed ..
    · rw [hdb, hpc]
      rfl

theorem Inv.claimCheck (h : Inv K code s) {i : Nat} {claim : Claim} (hclaim : s.claims[i]? = some claim) :
    Inv K code (s.claimCheck K i claim) := by
  have hsound := h.claims claim (List.mem_of_getElem? hclaim)
  unfold State.claimCheck
  split
  · next result hres =>
    refine ⟨h.ordered, h.row, h.confirmed, fun c hc => h.claims c (List.mem_of_mem_eraseIdx hc),
      fun r hr => ?_⟩
    rcases List.mem_append.1 hr with hr | hr
    · exact h.responses r hr
    · obtain rfl := List.mem_singleton.1 hr
      exact ⟨hsound, fun hst => absurd hst (claimCheck_inl hres)⟩
  · next d hres =>
    refine ⟨h.ordered, h.row, h.confirmed, fun c hc => ?_, h.responses⟩
    rcases List.mem_or_eq_of_mem_set hc with hc | rfl
    · exact h.claims c hc
    · refine ⟨hsound.le, hsound.row, fun now d' hd => ?_⟩
      obtain ⟨rfl, rfl⟩ := Prod.mk.inj (Option.some.inj hd)
      exact hres

theorem Inv.claimKiosk (h : Inv K code s) {i checkedAt : Nat} {claim : Claim} {d : Delivery}
    (hclaim : s.claims[i]? = some claim) (hd : claim.delivery = some (checkedAt, d)) :
    Inv K code (s.claimKiosk i claim checkedAt d) := by
  have hsound := h.claims claim (List.mem_of_getElem? hclaim)
  refine ⟨h.ordered, h.row, h.confirmed, fun c hc => h.claims c (List.mem_of_mem_eraseIdx hc), fun r hr => ?_⟩
  rcases List.mem_append.1 hr with hr | hr
  · exact h.responses r hr
  · obtain rfl := List.mem_singleton.1 hr
    exact ⟨hsound, fun _ => ⟨d, hsound.delivery checkedAt d hd, rfl⟩⟩

theorem Inv.step {a : Action} (h : Inv K code s) (hstep : step K code s a = some s') : Inv K code s' := by
  cases a with
  | initiate input secret =>
    obtain ⟨db, hdb, rfl⟩ := Option.map_eq_some_iff.1 hstep
    exact h.initiate hdb
  | confirm input fresh budget =>
    simp only [Pairing.step] at hstep
    split at hstep <;> cases hstep
    exact h.confirm input fresh budget
  | claimRead secret =>
    obtain rfl := Option.some.inj hstep
    refine ⟨h.ordered, h.row, h.confirmed, fun c hc => ?_, h.responses⟩
    rcases List.mem_append.1 hc with hc | hc
    · exact h.claims c hc
    · obtain rfl := List.mem_singleton.1 hc
      exact ⟨Nat.le_refl _, by rw [List.take_length]; exact h.row, fun _ _ hd => by cases hd⟩
  | claimCheck i =>
    simp only [Pairing.step] at hstep
    split at hstep
    · next claim hclaim =>
      split at hstep <;> cases hstep
      exact h.claimCheck hclaim
    · cases hstep
  | claimKiosk i =>
    simp only [Pairing.step] at hstep
    split at hstep
    · next claim hclaim =>
      obtain ⟨⟨checkedAt, d⟩, hd, rfl⟩ := Option.map_eq_some_iff.1 hstep
      exact h.claimKiosk hclaim hd
    · cases hstep
  | acknowledge kioskId schemaName secret budget =>
    obtain rfl := Option.some.inj hstep
    exact h.acknowledge kioskId schemaName secret budget
  | setEnabled schema id enabled =>
    obtain rfl := Option.some.inj hstep
    exact h.frame (by rfl) s.now
  | deleteKiosk schema id =>
    obtain rfl := Option.some.inj hstep
    exact h.frame (by rfl) s.now
  | admin schemas =>
    obtain rfl := Option.some.inj hstep
    exact h.frame (by rfl) s.now
  | elapse ms =>
    obtain rfl := Option.some.inj hstep
    exact h.frame rfl _

theorem Inv.run {schemas : String → Schema} {actions : List Action}
    (h : Machine.run (Pairing.step K code) (Pairing.init schemas) actions = some s) : Inv K code s :=
  Machine.run_inv (fun _ _ _ hstep hinv => Inv.step hinv hstep) h (Inv.init schemas)

end Inv

/-! ### Safety -/

/-- The kiosks that differ after the confirmation are its own kiosk only. -/
structure Confirmation.OneKiosk (c : Confirmation) : Prop where
  schemas : ∀ schema, schema ≠ c.input.schema → c.after.schemas schema = c.before.schemas schema
  kiosks : ∀ k : Kiosk, k.id ≠ c.kioskId →
    (k ∈ (c.after.schemas c.input.schema).kiosks ↔ k ∈ (c.before.schemas c.input.schema).kiosks)

/-- The kiosk has the key and the encryption key of the confirmation. -/
def Confirmation.Stored (K : Crypto) (c : Confirmation) : Prop :=
  ∃ k, findKiosk c.after c.input.schema c.kioskId = some k ∧
    K.verifyPassword c.fresh.kioskKey k.key_hash = true ∧
    k.encrypt_key_encrypted.bind (K.decryptString · "kiosk-encrypt") = some c.fresh.encryptKey

/-- One confirmation, of one kiosk, whose credentials every claim that succeeds is given. -/
structure Safe (K : Crypto) (s : State) : Prop where
  once : (s.log.filter Event.isConfirmed).length ≤ 1
  kiosk : ∀ c, .confirmed c ∈ s.log → c.OneKiosk
  credentials : ∀ r ∈ s.responses, r.result.status = .claimed →
    ∃ c, .confirmed c ∈ s.log ∧ c.Stored K ∧ r.result.kioskId = some c.kioskId ∧
      r.result.kioskKey = some c.fresh.kioskKey ∧ r.result.encryptKey = some c.fresh.encryptKey
  agree : ∀ r ∈ s.responses, ∀ r' ∈ s.responses, r.result.status = .claimed → r'.result.status = .claimed →
    r.result.kioskKey = r'.result.kioskKey ∧ r.result.encryptKey = r'.result.encryptKey
  /-- The row was read after the confirmation and before any acknowledgement, with the right polling
  secret, in time, and the kiosk was there and enabled when it was looked up. -/
  guarded : ∀ r ∈ s.responses, r.result.status = .claimed →
    ∃ now input secret c, s.log.take r.claim.readAt = [.initiated now input secret, .confirmed c] ∧
      (input.secureClaim → secret ≠ "" → r.claim.secret = some secret) ∧
      r.checkedAt < c.at_ + DELIVERY_GRACE_MS ∧ ∃ k, r.kiosk = some k ∧ k.enabled = true

/-- The two inputs ask for the same. -/
structure SameRequest (input input' : PairingConfirmInput) : Prop where
  demo : input'.demo = input.demo
  schema : input'.schema = input.schema
  replaceKioskId : input'.replaceKioskId = input.replaceKioskId
  nameOverride : input'.nameOverride = input.nameOverride
  initialLabels : input'.initialLabels.getD [] = input.initialLabels.getD []

/-- What a confirmation does in `s`. -/
structure ConfirmLaw (K : Crypto) (s : State) (input : PairingConfirmInput) (fresh : Fresh) : Prop where
  consumed : ∀ c, .confirmed c ∈ s.log → ∀ budget, (confirmPairing K s.now fresh input budget s.db).2 = s.db
  other : ∀ c, .confirmed c ∈ s.log → ∀ budget, ¬ SameRequest c.input input →
    ∃ e, (confirmPairing K s.now fresh input budget s.db).1 = .error e
  retry : ∀ c, .confirmed c ∈ s.log → SameRequest c.input input →
    (confirmPairing K s.now fresh input none s.db).1 =
      match findKiosk s.db c.input.schema c.kioskId with
      | some k => .ok (c.kioskId, k.name)
      | none => .error "paired kiosk no longer exists"
  first : (∀ c, .confirmed c ∉ s.log) → ∀ budget,
    (∃ e, confirmPairing K s.now fresh input budget s.db = (.error e, s.db)) ∨
      ∃ id name db' pc, confirmPairing K s.now fresh input budget s.db = (.ok (id, name), db') ∧
        s.db.pairing_code = some pc ∧ Consumed K s.now fresh input pc id s.db db'

section Safety

variable {K : Crypto} {code : String} {s : State} {input input' : PairingConfirmInput} {fresh : Fresh}

theorem request_eq_iff : input'.request = input.request ↔
    input'.replaceKioskId = input.replaceKioskId ∧ input'.nameOverride = input.nameOverride ∧
      input'.initialLabels.getD [] = input.initialLabels.getD [] := by
  have hopt : ∀ a b : Option String, Json.ofOption .str a = Json.ofOption .str b ↔ a = b := by
    intro a b
    rcases a with _ | a <;> rcases b with _ | b <;> simp [Json.ofOption]
  have hlist : ∀ a b : List String, a.map Json.str = b.map .str ↔ a = b := fun a b =>
    (List.map_injective_iff.2 fun x y h => Json.str.inj h).eq_iff
  unfold PairingConfirmInput.request
  rw [Json.stringify_injective.eq_iff]
  simp [hopt, hlist]

theorem Consumed.stored (hK : K.Lawful) {c : Confirmation} {pc : PairingCode}
    (h : Consumed K c.at_ c.fresh c.input pc c.kioskId c.before c.after) : c.Stored K := by
  obtain ⟨k, hk, hhash, hkey⟩ := h.kiosk
  refine ⟨k, hk, ?_, ?_⟩
  · rw [hhash]
    exact hK.verify_hash ..
  · rw [hkey]
    exact hK.decrypt_encrypt ..

theorem Inv.claimed (hK : K.Lawful) (h : Inv K code s) {r : Response} (hr : r ∈ s.responses)
    (hst : r.result.status = .claimed) :
    ∃ now input secret c, s.log.take r.claim.readAt = [.initiated now input secret, .confirmed c] ∧
      r.result.kioskId = some c.kioskId ∧ r.result.kioskKey = some c.fresh.kioskKey ∧
      r.result.encryptKey = some c.fresh.encryptKey ∧
      (input.secureClaim → secret ≠ "" → r.claim.secret = some secret) ∧
      r.checkedAt < c.at_ + DELIVERY_GRACE_MS ∧ ∃ k, r.kiosk = some k ∧ k.enabled = true := by
  have hsound := h.responses r hr
  obtain ⟨d, hcheck, hresult⟩ := hsound.claimed hst
  rw [hsound.claim.row] at hcheck
  obtain ⟨now, input, secret, c, hlog, hkey, hekey, hid, -, hsecret, hlt⟩ :=
    claimCheck_replay hK (h.ordered.take _) hcheck
  rw [hresult] at hst
  obtain ⟨hrid, hrkey, hrekey, hkiosk⟩ := claimAnswer_claimed hst
  rw [← hresult] at hrid hrkey hrekey
  exact ⟨now, input, secret, c,
    hlog, by rw [hrid, hid], by rw [hrkey, hkey], by rw [hrekey, hekey], hsecret, hlt,
    hkiosk⟩

theorem Inv.safe (hK : K.Lawful) (h : Inv K code s) : Safe K s := by
  have hmem : ∀ {n now input secret} {c : Confirmation},
      s.log.take n = [.initiated now input secret, .confirmed c] → Event.confirmed c ∈ s.log := by
    intro n _ _ _ c hlog
    refine List.mem_of_mem_take (i := n) ?_
    rw [hlog]
    simp
  refine ⟨h.ordered.confirmed_once, fun c hc => ?_, fun r hr hst => ?_, fun r hr r' hr' hst hst' => ?_,
    fun r hr hst => ?_⟩
  · obtain ⟨pc, hconsumed⟩ := h.confirmed c hc
    exact ⟨hconsumed.schemas, hconsumed.kiosks⟩
  · obtain ⟨now, input, secret, c, hlog, hid, hkey, hekey, -⟩ := h.claimed hK hr hst
    obtain ⟨pc, hconsumed⟩ := h.confirmed c (hmem hlog)
    exact ⟨c, hmem hlog, hconsumed.stored hK, hid, hkey, hekey⟩
  · obtain ⟨now, input, secret, c, hlog, -, hkey, hekey, -⟩ := h.claimed hK hr hst
    obtain ⟨now', input', secret', c', hlog', -, hkey', hekey', -⟩ := h.claimed hK hr' hst'
    obtain ⟨_, _, _, acks, heq⟩ := h.ordered.eq_of_confirmed (hmem hlog)
    have hc := hmem hlog'
    rw [heq] at hc
    obtain rfl : c' = c := by simpa using hc
    exact ⟨hkey.trans hkey'.symm, hekey.trans hekey'.symm⟩
  · obtain ⟨now, input, secret, c, hlog, -, -, -, hguard⟩ := h.claimed hK hr hst
    exact ⟨now, input, secret, c, hlog, hguard⟩

/-- The row of a consumed code, as far as a confirmation looks at it. -/
theorem Inv.consumed_row (h : Inv K code s) {c : Confirmation} (hc : .confirmed c ∈ s.log) :
    ∃ pc, s.db.pairing_code = some pc ∧ pc.consumed_at.isSome ∧ pc.consumed_by_kiosk_id = some c.kioskId ∧
      pc.extras.demo = c.input.demo ∧ pc.extras.tenant_schema = some c.input.schema ∧
      pc.extras.confirmation_request = some c.input.request := by
  obtain ⟨now, i, secret, acks, hlog⟩ := h.ordered.eq_of_confirmed hc
  obtain ⟨extras, hreplay, hkept, -⟩ := replay_confirmed K code now i secret c acks
  exact ⟨_, by rw [h.row, hlog, hreplay], rfl, rfl, hkept.demo, hkept.schema, hkept.request⟩

theorem Inv.confirmLaw (h : Inv K code s) (input : PairingConfirmInput) (fresh : Fresh) :
    ConfirmLaw K s input fresh := by
  refine ⟨fun c hc budget => ?_, fun c hc budget hother => ?_, fun c hc hsame => ?_, fun hnone budget => ?_⟩
  · obtain ⟨pc, hpc, hcons, -⟩ := h.consumed_row hc
    exact (confirmPairing_other hpc hcons rfl).1
  · obtain ⟨pc, hpc, hcons, -, hdemo, hschema, hrequest⟩ := h.consumed_row hc
    rcases (confirmPairing_other hpc hcons rfl).2 with herr | ⟨hd, hs, hr⟩
    · exact herr
    · have hreq := request_eq_iff.1 (Option.some.inj (hr.symm.trans hrequest))
      exact absurd ⟨hd.symm.trans hdemo, Option.some.inj (hs.symm.trans hschema), hreq.1, hreq.2.1,
        hreq.2.2⟩ hother
  · obtain ⟨pc, hpc, hcons, hid, hdemo, hschema, hrequest⟩ := h.consumed_row hc
    have hreq := request_eq_iff.2 ⟨hsame.replaceKioskId, hsame.nameOverride, hsame.initialLabels⟩
    rw [confirmPairing_again hpc hcons (hdemo.trans hsame.demo.symm) (by rw [hschema, hsame.schema])
      (by rw [hrequest, hreq]), hid, Option.bind_some, hsame.schema]
    rcases hk : findKiosk s.db c.input.schema c.kioskId with _ | k
    · rfl
    · have hkid : k.id = c.kioskId := by simpa using List.find?_some hk
      show Except.ok (k.id, k.name) = Except.ok (c.kioskId, k.name)
      rw [hkid]
  · rcases hres : confirmPairing K s.now fresh input budget s.db with ⟨e | ⟨id, name⟩, db'⟩
    · exact .inl ⟨e, by rw [transact_error hres]⟩
    · obtain ⟨pc, hpc, ⟨hcons, -⟩ | ⟨-, hconsumed⟩⟩ := confirmPairing_ok hres
      · obtain ⟨now, i, secret, c, acks, hlog⟩ := h.ordered.of_consumed (h.row.symm.trans hpc) (.inl hcons)
        exact absurd (by rw [hlog]; simp) (hnone c)
      · exact .inr ⟨id, name, db', pc, rfl, hpc, hconsumed⟩

end Safety

/-- In every state the protocol can reach, what has happened is safe, and so is the next confirmation. -/
theorem pairing_safe (K : Crypto) (hK : K.Lawful) (code : String) (schemas : String → Schema)
    (actions : List Action)
    (s : State) (hrun : Machine.run (step K code) (init schemas) actions = some s) :
    Safe K s ∧ ∀ input fresh, ConfirmLaw K s input fresh :=
  have h := Inv.run hrun
  ⟨h.safe hK, h.confirmLaw⟩


/-- A run in which a device gets its credentials. -/
theorem pairing_safe_delivered : ∃ s, s.responses.map (·.result.status) = [.claimed] ∧
    Safe plainCrypto s ∧ ∀ input fresh, ConfirmLaw plainCrypto s input fresh := by
  let device : PairingInitiateInput := ⟨none, none, none, [], false, 600, true⟩
  let admin : PairingConfirmInput := ⟨false, "CODE", some "lobby", none, none, false, none⟩
  let drawn : Fresh := ⟨"key", "salt", "ekey", "iv", "iv", "k1", "d1", []⟩
  let schemas : String → Schema := fun _ => ⟨[], [], [], []⟩
  let c : Confirmation := ⟨0, drawn, admin, "k1", ⟨none, schemas⟩, ⟨none, schemas⟩⟩
  obtain ⟨s, hrun, hnow, hclaims, hresponses, k, hkiosk, henabled⟩ : ∃ s,
      Machine.run (step plainCrypto "CODE") (init schemas)
        [.initiate device "secret", .confirm admin drawn none, .claimRead (some "secret")] = some s ∧
          s.now = 0 ∧
      s.claims = [⟨some "secret", 2, some (consumedRow plainCrypto "CODE" 0 device "secret" c), none⟩] ∧
      s.responses = [] ∧ ∃ k, findKiosk s.db "public" "k1" = some k ∧ k.enabled = true :=
    ⟨_, rfl, rfl, rfl, rfl, _, rfl, rfl⟩
  obtain ⟨remaining, hcheck⟩ : ∃ remaining, claimCheck plainCrypto s.now (some "secret")
      (some (consumedRow plainCrypto "CODE" 0 device "secret" c)) =
      .inr ⟨remaining, "k1", "public", drawn.kioskKey, some "ekey", false⟩ := by
    rw [hnow]
    exact ⟨_, claimCheck_consumedRow plainCrypto_lawful (by decide) (fun _ _ => rfl) (by decide)⟩
  obtain ⟨s', htail, hstatus⟩ : ∃ s', Machine.run (step plainCrypto "CODE") s [.claimCheck 0,
    .claimKiosk 0] = some s' ∧ s'.responses.map (·.result.status) = [.claimed] := by
    simp [Machine.run, step, hclaims, State.claimCheck, hcheck, State.claimKiosk, hresponses, hkiosk,
      claimAnswer, henabled]
  exact ⟨s', hstatus,
    pairing_safe plainCrypto plainCrypto_lawful "CODE" schemas _ s' (Machine.run_append.2 ⟨s, hrun, htail⟩)⟩

end Pairing
