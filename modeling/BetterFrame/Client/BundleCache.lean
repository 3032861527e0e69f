import BetterFrame.Lib.Json
import BetterFrame.Lib.Run

/-!
# The cached bundle and its validator

`fetch_bundle`, `save_bundle` and `load_cached_bundle` of `server.rs`, step by step, against the
server's `/api/kiosk/bundle`. `bundle_coherent` says when what a fetch returns has the version that
the server answered with.
-/

namespace BundleCache

/-- A bundle carries its version, which is also the server's ETag of it. -/
structure Bundle where
  version : String
  content : Json

/-- Between the steps of a fetch: its request is sent, it was answered with 304 or a usable body,
the body is saved. -/
inductive Task where
  | sent (ifNoneMatch : Option String)
  | notModified (version : String)
  | received (bundle : Bundle)
  | saved (bundle : Bundle)

/-- `disk` is the cached bundle that can be read, `returned` the bundles that fetches returned, each
with the version that the server answered it with. -/
structure State where
  server : String
  etag : Option String
  disk : Option Bundle
  tasks : Nat → Option Task
  returned : List (String × Bundle)

/-- An answer of the server may have a body that is malformed or truncated. `fails` is any other
answer, or none. -/
inductive Label where
  | publishes (version : String)
  | starts (id : Nat)
  | answers (id : Nat) (body : Option Json)
  | fails (id : Nat)
  | loads (id : Nat)
  | saves (id : Nat) (ok : Bool)
  | commits (id : Nat)
  | restarts

namespace State

variable (s : State)

def init (server : String) (disk : Option Bundle) : State := ⟨server, none, disk, fun _ => none, []⟩

/-- The request `id` is at `task`, or has ended. -/
def put (id : Nat) (task : Option Task) : State :=
  { s with tasks := fun i => if i = id then task else s.tasks i }

/-- The request `id` returns a bundle. -/
def give (id : Nat) (version : String) (bundle : Bundle) : State :=
  { s.put id none with returned := (version, bundle) :: s.returned }

/-- The server's answer: not modified if the tag is the version it has. -/
def answer (id : Nat) (ifNoneMatch : Option String) (body : Option Json) : State :=
  if ifNoneMatch = some s.server then s.put id (some (.notModified s.server))
  else match body with
    | some content => s.put id (some (.received ⟨s.server, content⟩))
    | none => s.put id none

end State

def step (s : State) : Label → Option State
  | .publishes version => some { s with server := version }
  | .starts id => if (s.tasks id).isSome then none else some (s.put id (some (.sent s.etag)))
  | .answers id body =>
    match s.tasks id with
    | some (.sent ifNoneMatch) => some (s.answer id ifNoneMatch body)
    | _ => none
  | .fails id =>
    match s.tasks id with
    | some (.sent _) => some (s.put id none)
    | _ => none
  | .loads id =>
    match s.tasks id with
    | some (.notModified version) => some (match s.disk with
      | some bundle => s.give id version bundle
      | none => s.put id none)
    | _ => none
  | .saves id ok =>
    match s.tasks id with
    | some (.received bundle) =>
      some ({ s with disk := if ok then some bundle else s.disk }.put id (some (.saved bundle)))
    | _ => none
  | .commits id =>
    match s.tasks id with
    | some (.saved bundle) => some ({ s with etag := some bundle.version }.give id bundle.version bundle)
    | _ => none
  | .restarts => some { s with etag := none, tasks := fun _ => none }

/-- What a fetch returns has the version that the server answered it with. -/
def Coherent (s : State) : Prop := ∀ p ∈ s.returned, p.2.version = p.1

/-- The version that a fetch may still take the cached bundle for. -/
def Task.version? : Task → Option String
  | .sent ifNoneMatch => ifNoneMatch
  | .notModified version => some version
  | .received _ => none
  | .saved bundle => some bundle.version

/-- A bundle is saved while no other fetch takes the cache for another version, or its save fails
where the cache has its version; and no fetch sends the ETag of another version while a bundle is
saved and its ETag is not. -/
def Harmless (s : State) : Label → Prop
  | .starts _ => ∀ id bundle, s.tasks id = some (.saved bundle) → ∀ version ∈ s.etag, version = bundle.version
  | .saves id true => ∀ bundle, s.tasks id = some (.received bundle) →
    ∀ other ≠ id, ∀ task ∈ s.tasks other, ∀ version ∈ task.version?, version = bundle.version
  | .saves id false =>
    ∀ bundle, s.tasks id = some (.received bundle) → ∀ old ∈ s.disk, old.version = bundle.version
  | _ => True

/-! ### Runs -/

variable {s s' : State}

/-- The cached bundle has the version that any fetch in flight takes it for, and the ETag's once
every saved bundle's ETag is committed. -/
structure Inv (s : State) : Prop where
  tasks : ∀ old ∈ s.disk, ∀ id, ∀ task ∈ s.tasks id, ∀ version ∈ task.version?, old.version = version
  etag : ∀ old ∈ s.disk, (∀ id bundle, s.tasks id ≠ some (.saved bundle)) →
    ∀ version ∈ s.etag, old.version = version
  returned : Coherent s

/-- A fetch that has saved nothing goes on with a task that it may take the cache for. -/
theorem Inv.put (h : Inv s) {id : Nat} {task : Option Task}
    (hold : ∀ bundle, s.tasks id ≠ some (.saved bundle))
    (hnew : ∀ old ∈ s.disk, ∀ t ∈ task, ∀ version ∈ t.version?, old.version = version) :
    Inv (s.put id task) where
  tasks old hdisk other t ht := by
    by_cases hid : other = id
    · exact hnew old hdisk t (by simpa [State.put, hid] using ht)
    · exact h.tasks old hdisk other t (by simpa [State.put, hid] using ht)
  etag old hdisk hnone := by
    refine h.etag old hdisk fun other bundle => ?_
    by_cases hid : other = id
    · exact hid ▸ hold bundle
    · simpa [State.put, hid] using hnone other bundle
  returned := h.returned

theorem Inv.answer (h : Inv s) {id : Nat} {ifNoneMatch : Option String}
    (htask : s.tasks id = some (.sent ifNoneMatch))
    (body : Option Json) : Inv (s.answer id ifNoneMatch body) := by
  have hold : ∀ bundle, s.tasks id ≠ some (.saved bundle) := by
    intro bundle hsaved
    cases htask.symm.trans hsaved
  unfold State.answer
  split
  · next heq =>
    refine h.put hold fun old hdisk t ht version hversion => ?_
    obtain rfl := Option.some.inj ht
    obtain rfl := Option.some.inj hversion
    exact h.tasks old hdisk id _ htask s.server heq
  · split
    · exact h.put hold fun old hdisk t ht version hversion => by
        obtain rfl := Option.some.inj ht
        cases hversion
    · exact h.put hold nofun

/-- A saved bundle is the cache's for every fetch in flight, or the cache had its version already. -/
theorem Inv.save (h : Inv s) {id : Nat} {bundle : Bundle} {disk : Option Bundle}
    (hnew : ∀ old ∈ disk, old.version = bundle.version)
    (hothers : ∀ old ∈ disk, ∀ other ≠ id, ∀ task ∈ s.tasks other, ∀ version ∈ task.version?,
    old.version = version) :
    Inv ({ s with disk }.put id (some (.saved bundle))) where
  tasks old hold other t ht version hversion := by
    by_cases hid : other = id
    · obtain rfl : Task.saved bundle = t := by simpa [State.put, hid] using ht
      obtain rfl := Option.some.inj hversion
      exact hnew old hold
    · exact hothers old hold other hid t (by simpa [State.put, hid] using ht) version hversion
  etag old hold hnone := absurd (if_pos rfl) (hnone id bundle)
  returned := h.returned

/-- A process that starts has no fetch in flight and no ETag. -/
theorem Inv.fresh (hetag : s.etag = none) (htasks : ∀ id, s.tasks id = none) (hreturned : Coherent s) :
    Inv s where
  tasks old _ id t ht := by
    rw [htasks] at ht
    cases ht
  etag old _ _ version hversion := by
    rw [hetag] at hversion
    cases hversion
  returned := hreturned

theorem Inv.step (h : Inv s) {label : Label} (hgood : Harmless s label) (hs : step s label = some s') :
    Inv s' := by
  cases label with
  | publishes version =>
    obtain rfl := Option.some.inj hs
    exact ⟨h.tasks, h.etag, h.returned⟩
  | starts id =>
    simp only [BundleCache.step] at hs
    split at hs
    · cases hs
    · next hfree =>
      obtain rfl := Option.some.inj hs
      refine h.put (fun bundle hsaved => hfree (by rw [hsaved]; rfl)) fun old hdisk t ht version hversion =>
        ?_
      obtain rfl := Option.some.inj ht
      by_cases hsaved : ∃ id bundle, s.tasks id = some (.saved bundle)
      · obtain ⟨id, bundle, hsaved⟩ := hsaved
        rw [hgood id bundle hsaved version hversion]
        exact h.tasks old hdisk id _ hsaved bundle.version rfl
      · exact h.etag old hdisk (fun id bundle htask => hsaved ⟨id, bundle, htask⟩) version hversion
  | answers id body =>
    simp only [BundleCache.step] at hs
    split at hs
    · next ifNoneMatch htask =>
      obtain rfl := Option.some.inj hs
      exact h.answer htask body
    · cases hs
  | fails id =>
    simp only [BundleCache.step] at hs
    split at hs
    · next ifNoneMatch htask =>
      obtain rfl := Option.some.inj hs
      exact h.put (fun bundle hsaved => nomatch htask.symm.trans hsaved) nofun
    · cases hs
  | loads id =>
    simp only [BundleCache.step] at hs
    split at hs
    · next version htask =>
      have hnone : Inv (s.put id none) := h.put (fun bundle hsaved => nomatch htask.symm.trans hsaved) nofun
      obtain rfl := Option.some.inj hs
      split
      · next bundle hdisk =>
        refine ⟨hnone.tasks, hnone.etag, fun p hp => ?_⟩
        rcases List.mem_cons.1 hp with rfl | hp
        · exact h.tasks bundle hdisk id _ htask version rfl
        · exact h.returned p hp
      · exact hnone
    · cases hs
  | saves id ok =>
    simp only [BundleCache.step] at hs
    split at hs
    · next bundle htask =>
      obtain rfl := Option.some.inj hs
      cases ok with
      | true =>
        refine h.save (fun old hold => congrArg _ (Option.some.inj hold).symm)
          fun old hold other hid task ht version hversion => ?_
        obtain rfl := Option.some.inj hold
        exact (hgood bundle htask other hid task ht version hversion).symm
      | false => exact h.save (hgood bundle htask) fun old hold other _ => h.tasks old hold other
    · cases hs
  | commits id =>
    simp only [BundleCache.step] at hs
    split at hs
    · next bundle htask =>
      obtain rfl := Option.some.inj hs
      refine ⟨fun old hdisk other t ht => ?_, fun old hdisk _ version hversion => ?_, fun p hp => ?_⟩
      · by_cases hid : other = id
        · simp [State.give, State.put, hid] at ht
        · exact h.tasks old hdisk other t (by simpa [State.give, State.put, hid] using ht)
      · obtain rfl := Option.some.inj hversion
        exact h.tasks old hdisk id _ htask bundle.version rfl
      · rcases List.mem_cons.1 hp with rfl | hp
        · rfl
        · exact h.returned p hp
    · cases hs
  | restarts =>
    obtain rfl := Option.some.inj hs
    exact .fresh rfl (fun _ => rfl) h.returned

/-- In a run whose steps are all harmless, fetches return the version that they were answered with. -/
theorem bundle_coherent {server : String} {disk : Option Bundle} {labels : List Label}
    (hrun : Machine.run step (.init server disk) labels = some s)
    (hgood : Machine.Along step Harmless (.init server disk) labels) : Coherent s :=
  (hgood.inv (fun _ _ _ hlabel hs hi => Inv.step hi hlabel hs) hrun
    (Inv.fresh rfl (fun _ => rfl) nofun)).returned

/-! ### Two versions -/

/-- Two fetches one after the other, the second of which is answered with 304. -/
def again : List Label :=
  [.starts 0, .answers 0 (some .null), .saves 0 true, .commits 0, .starts 1, .answers 1 none, .loads 1]

theorem bundle_coherent_again : ∃ s, Machine.run step (.init "v1" none) again = some s ∧ Coherent s := by
  refine ⟨_, rfl, @bundle_coherent _ "v1" none again rfl ⟨?_, trivial, ?_, trivial, ?_, trivial,
    trivial, trivial⟩⟩
  · exact fun _ _ htask => nomatch htask
  · intro bundle _ other hother task htask
    simp [State.answer, State.put, State.init, hother] at htask
  · intro id bundle htask
    by_cases hid : id = 0
    · simp [State.give, State.put, hid] at htask
    · simp [State.give, State.answer, State.put, State.init, hid] at htask

/-- The save of version 2 fails, its ETag is committed, and the next fetch is answered with 304 and
gives version 1. -/
theorem older_bundle : ¬ ∀ (server : String) (disk : Option Bundle) (labels : List Label) (s : State),
    Machine.run step (.init server disk) labels = some s → Coherent s := by
  intro h
  have hcoherent := h "v1" none
    (again ++ [.publishes "v2", .starts 2, .answers 2 (some .null), .saves 2 false, .commits 2,
    .starts 3, .answers 3 none, .loads 3]) _ rfl
  exact absurd (hcoherent _ (List.mem_cons_self ..)) (by decide)

end BundleCache
