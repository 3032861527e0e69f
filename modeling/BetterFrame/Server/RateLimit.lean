import BetterFrame.Lib.OrdMap
import Mathlib.Algebra.Order.Ring.Rat
import Mathlib.Data.List.Pairwise
import Mathlib.Tactic.Linarith

/-!
# The rate limiter

`shared/rate-limit.ts`: the buckets, the shared count of their entries, and the sweep.
`rate_limit_exact` is the law of every sequence of calls under a clock that does not go back: the
caps hold, a key's quota holds in every window since its last reset, and `remaining` says how many
calls are admitted.
-/

namespace RateLimit

structure RateLimitConfig where
  windowMs : Int
  max : Int
  maxBuckets : Option Int
  maxEntries : Option Int

def isSafeInteger (value : Int) : Bool := -9007199254740991 ≤ value ∧ value ≤ 9007199254740991

/-- The numbers of a configuration that was accepted. -/
structure Limits where
  windowMs : Int
  max : Int
  maxBuckets : Int
  maxEntries : Int
  windowMs_pos : 0 < windowMs
  max_pos : 0 < max
  maxBuckets_pos : 0 < maxBuckets
  maxEntries_pos : 0 < maxEntries

/-- What `createRateLimiter` does before it returns the limiter. -/
def createRateLimiter (config : RateLimitConfig) : Except String Limits :=
  let maxBuckets := config.maxBuckets.getD 10000
  let maxEntries := config.maxEntries.getD 100000
  if h : ∀ value ∈ [config.windowMs, config.max, maxBuckets, maxEntries], isSafeInteger value ∧ 0 < value then
    .ok ⟨config.windowMs, config.max, maxBuckets, maxEntries, (h _ (by simp)).2, (h _ (by simp)).2,
      (h _ (by simp)).2, (h _ (by simp)).2⟩
  else .error "invalid rate limit configuration"

/-- The hits that count at `now`. -/
def live (limits : Limits) (now : ℚ) (hits : List ℚ) : List ℚ :=
  hits.filter fun timestamp => timestamp > now - limits.windowMs

/-- The hits by key, how many there are, and when the next sweep is due. -/
structure Limiter where
  buckets : OrdMap String (List ℚ)
  entries : Int
  nextSweep : ℚ

namespace Limiter

def fresh : Limiter := ⟨.empty, 0, 0⟩

variable (limits : Limits) (s : Limiter)

def hits (key : String) : List ℚ := (s.buckets.get? key).getD []

/-- The hits of a key that are still in the window. -/
def trim (key : String) (now : ℚ) : Limiter × List ℚ :=
  let previous := s.hits key
  let live := live limits now previous
  let entries := s.entries - (previous.length - live.length)
  if live.length = 0 then ({ s with buckets := s.buckets.erase key, entries }, live)
  else ({ s with buckets := s.buckets.set key live, entries }, live)

/-- The loop of `sweep`. -/
def trimAll (now : ℚ) : List String → Limiter → Limiter
  | [], s => s
  | key :: keys, s => trimAll now keys (s.trim limits key now).1

/-- All keys trimmed, at most once a period. -/
def sweep (now : ℚ) : Limiter :=
  if now < s.nextSweep then s
  else { s.trimAll limits now (s.buckets.entries.map Prod.fst) with
    nextSweep := now + min limits.windowMs 1000 }

/-- Admits a hit when every limit allows it. -/
def take (key : String) (now : ℚ) : Bool × Limiter :=
  let (s, hits) := (s.sweep limits now).trim limits key now
  if hits.length ≥ limits.max ∨ s.entries ≥ limits.maxEntries then (false, s)
  else if hits.length = 0 ∧ s.buckets.size ≥ limits.maxBuckets then (false, s)
  else (true, { s with buckets := s.buckets.set key (hits ++ [now]), entries := s.entries + 1 })

/-- How many hits the key still has. -/
def remaining (key : String) (now : ℚ) : Int × Limiter :=
  let (s, hits) := (s.sweep limits now).trim limits key now
  if hits.length = 0 ∧ s.buckets.size ≥ limits.maxBuckets then (0, s)
  else (max 0 (min (limits.max - hits.length) (limits.maxEntries - s.entries)), s)

def reset (key : String) : Limiter :=
  { s with entries := s.entries - (s.hits key).length, buckets := s.buckets.erase key }

end Limiter

/-! ### The buckets -/

/-- The count is right and within the limits, and no bucket is empty. -/
structure Consistent (limits : Limits) (s : Limiter) : Prop where
  entries : s.entries = (s.buckets.sum List.length : Nat)
  entries_le : s.entries ≤ limits.maxEntries
  size_le : s.buckets.size ≤ limits.maxBuckets
  nonempty : ∀ key hits, s.buckets.get? key = some hits → hits ≠ []

/-- What is still live at `now` or later is in both. -/
def Thinned (limits : Limits) (now : ℚ) (s s' : Limiter) : Prop :=
  ∀ key n, now ≤ n → live limits n (s'.hits key) = live limits n (s.hits key)

section Buckets

variable {limits : Limits} {s s' t : Limiter} {key other : String} {now n : ℚ} {hits : List ℚ}

theorem live_live (h : now ≤ n) : live limits n (live limits now hits) = live limits n hits := by
  unfold live
  rw [List.filter_filter]
  refine List.filter_congr fun x _ => ?_
  simp only [gt_iff_lt, ← Bool.decide_and, decide_eq_decide]
  constructor
  · exact fun hx => hx.1
  · exact fun hx => ⟨hx, by linarith⟩

theorem Thinned.refl : Thinned limits now s s := fun _ _ _ => rfl

theorem Thinned.trans (h : Thinned limits now s s') (h' : Thinned limits now s' t) :
    Thinned limits now s t := fun key n hn =>
  (h' key n hn).trans (h key n hn)

theorem Consistent.get?_eq_none (hs : Consistent limits s) (h : (s.hits key).length = 0) :
    s.buckets.get? key = none := by
  cases hget : s.buckets.get? key with
  | none => rfl
  | some hits =>
    rw [Limiter.hits, hget] at h
    exact absurd (List.length_eq_zero_iff.1 h) (hs.nonempty key hits hget)

theorem get?_of_hits (h : (s.hits key).length ≠ 0) : s.buckets.get? key = some (s.hits key) := by
  cases hget : s.buckets.get? key with
  | none => exact absurd (by rw [Limiter.hits, hget]; rfl) h
  | some hits =>
    rw [Limiter.hits, hget]
    rfl

/-- The lengths that the bucket of `key` counts for. -/
theorem elim_length : (s.buckets.get? key).elim 0 List.length = (s.hits key).length := by
  unfold Limiter.hits
  cases s.buckets.get? key <;> rfl

theorem hits_erase {buckets : OrdMap String (List ℚ)} {entries : Int} {nextSweep : ℚ} :
    Limiter.hits ⟨buckets.erase key, entries, nextSweep⟩ other =
      if other = key then [] else Limiter.hits ⟨buckets, entries, nextSweep⟩ other := by
  unfold Limiter.hits
  split
  · next h =>
    rw [h, OrdMap.get?_erase_self]
    rfl
  · next h => rw [OrdMap.get?_erase_of_ne h]

theorem trim_live : (s.trim limits key now).2 = live limits now (s.hits key) := by
  unfold Limiter.trim
  dsimp only
  split <;> rfl

theorem trim_nextSweep : (s.trim limits key now).1.nextSweep = s.nextSweep := by
  unfold Limiter.trim
  dsimp only
  split <;> rfl

theorem trim_entries : (s.trim limits key now).1.entries =
    s.entries - ((s.hits key).length - (live limits now (s.hits key)).length) := by
  unfold Limiter.trim
  dsimp only
  split <;> rfl

theorem trim_buckets : (s.trim limits key now).1.buckets =
    if live limits now (s.hits key) = [] then s.buckets.erase key
    else s.buckets.set key (live limits now (s.hits key)) := by
  unfold Limiter.trim
  dsimp only
  by_cases h : live limits now (s.hits key) = []
  · rw [if_pos h, if_pos (List.length_eq_zero_iff.2 h)]
  · rw [if_neg h, if_neg fun hlength => h (List.length_eq_zero_iff.1 hlength)]

theorem trim_hits : (s.trim limits key now).1.hits other =
    if other = key then live limits now (s.hits key) else s.hits other := by
  unfold Limiter.hits
  rw [trim_buckets]
  by_cases h : live limits now (s.hits key) = []
  · rw [if_pos h]
    split
    · next hother =>
      rw [hother, OrdMap.get?_erase_self]
      exact h.symm
    · next hother => rw [OrdMap.get?_erase_of_ne hother]
  · rw [if_neg h, OrdMap.get?_set]
    split <;> rfl

theorem trim_thinned : Thinned limits now s (s.trim limits key now).1 := by
  intro other n hn
  rw [trim_hits]
  split
  · next h => rw [h, live_live hn]
  · rfl

theorem live_length_le : (live limits now hits).length ≤ hits.length := List.length_filter_le _ _

theorem trim_sum (limits : Limits) (s : Limiter) (key : String) (now : ℚ) :
    (s.trim limits key now).1.buckets.sum List.length + (s.hits key).length =
    s.buckets.sum List.length + (live limits now (s.hits key)).length := by
  rw [trim_buckets, ← elim_length]
  split
  · next h =>
    rw [h]
    exact OrdMap.sum_erase
  · exact OrdMap.sum_set

theorem trim_size (limits : Limits) (s : Limiter) (key : String) (now : ℚ) :
    (s.trim limits key now).1.buckets.size ≤ s.buckets.size := by
  rw [trim_buckets, ← OrdMap.sum_one, ← OrdMap.sum_one]
  split
  · have := OrdMap.sum_erase (m := s.buckets) (k := key) (f := fun _ => 1)
    omega
  · next h =>
    have hlength : (s.hits key).length ≠ 0 := fun hlength => h (by
      rw [List.length_eq_zero_iff.1 hlength]
      rfl)
    have := OrdMap.sum_set (m := s.buckets) (k := key) (v := live limits now (s.hits key)) (f := fun _ => 1)
    rw [get?_of_hits hlength, Option.elim_some] at this
    omega

theorem trim_consistent (hs : Consistent limits s) (key : String) (now : ℚ) :
    Consistent limits (s.trim limits key now).1 := by
  have hle : (live limits now (s.hits key)).length ≤ (s.hits key).length := live_length_le
  have hsum := trim_sum limits s key now
  have hentries := hs.entries
  have hentries_le := hs.entries_le
  refine ⟨?_, ?_, ?_, fun other hits hget => ?_⟩
  · rw [trim_entries]
    omega
  · rw [trim_entries]
    omega
  · have := hs.size_le
    have := trim_size limits s key now
    omega
  · rw [trim_buckets] at hget
    split at hget
    · by_cases hother : other = key
      · rw [hother, OrdMap.get?_erase_self] at hget
        cases hget
      · rw [OrdMap.get?_erase_of_ne hother] at hget
        exact hs.nonempty other hits hget
    · next h =>
      rw [OrdMap.get?_set] at hget
      split at hget
      · exact Option.some.inj hget ▸ h
      · exact hs.nonempty other hits hget

theorem trimAll_spec (now : ℚ) : ∀ (keys : List String) (s : Limiter), Consistent limits s →
    Consistent limits (s.trimAll limits now keys) ∧ Thinned limits now s (s.trimAll limits now keys)
  | [], _, hs => ⟨hs, .refl⟩
  | key :: keys, s, hs => by
    obtain ⟨hconsistent, hthinned⟩ := trimAll_spec now keys _ (trim_consistent hs key now)
    exact ⟨hconsistent, trim_thinned.trans hthinned⟩

theorem sweep_spec (hs : Consistent limits s) (now : ℚ) :
    Consistent limits (s.sweep limits now) ∧ Thinned limits now s (s.sweep limits now) ∧
    now < (s.sweep limits now).nextSweep := by
  unfold Limiter.sweep
  split
  · next h => exact ⟨hs, .refl, h⟩
  · obtain ⟨hconsistent, hthinned⟩ := trimAll_spec now (s.buckets.entries.map Prod.fst) s hs
    refine ⟨⟨hconsistent.entries, hconsistent.entries_le, hconsistent.size_le, hconsistent.nonempty⟩,
      hthinned, ?_⟩
    have hmin : (0 : ℚ) < (min limits.windowMs 1000 : Int) := by
      exact_mod_cast lt_min limits.windowMs_pos (by decide)
    exact lt_add_of_pos_right now hmin

end Buckets

/-! ### Calls -/

section Calls

variable {limits : Limits} {s : Limiter} {key other : String} {now : ℚ}

/-- The state in which a call of `take` or `remaining` decides. -/
def Limiter.ready (limits : Limits) (s : Limiter) (key : String) (now : ℚ) : Limiter :=
  ((s.sweep limits now).trim limits key now).1

/-- How many calls of `take` are admitted. -/
def room (limits : Limits) (s : Limiter) (key : String) : Int :=
  if (s.hits key).length = 0 ∧ s.buckets.size ≥ limits.maxBuckets then 0
  else max 0 (min (limits.max - (s.hits key).length) (limits.maxEntries - s.entries))

/-- The hit is recorded. -/
def grant (s : Limiter) (key : String) (now : ℚ) : Limiter :=
  { s with buckets := s.buckets.set key (s.hits key ++ [now]), entries := s.entries + 1 }

/-- Nothing expires for `key` at `now`. -/
structure Settled (limits : Limits) (s : Limiter) (key : String) (now : ℚ) : Prop where
  consistent : Consistent limits s
  swept : now < s.nextSweep
  trimmed : live limits now (s.hits key) = s.hits key

theorem ready_spec (hs : Consistent limits s) (key : String) (now : ℚ) :
    Settled limits (s.ready limits key now) key now ∧ Thinned limits now s (s.ready limits key now) := by
  obtain ⟨hconsistent, hthinned, hswept⟩ := sweep_spec hs now
  have hready := hthinned.trans (@trim_thinned _ _ key _)
  refine ⟨⟨trim_consistent hconsistent key now, ?_, ?_⟩, hready⟩
  · rw [Limiter.ready, trim_nextSweep]
    exact hswept
  · rw [Limiter.ready, trim_hits, if_pos rfl, live_live le_rfl]

theorem trim_hits_self : ((s.sweep limits now).trim limits key now).2 = (s.ready limits key now).hits
    key := by
  rw [trim_live, Limiter.ready, trim_hits, if_pos rfl]

theorem remaining_eq : s.remaining limits key now = (room limits (s.ready limits key now) key,
    s.ready limits key now) := by
  unfold Limiter.remaining room
  dsimp only
  have hready : ((s.sweep limits now).trim limits key now).1 = s.ready limits key now := rfl
  rw [trim_hits_self, hready]
  by_cases h : ((s.ready limits key now).hits key).length = 0 ∧
    (s.ready limits key now).buckets.size ≥ limits.maxBuckets
  · rw [if_pos h, if_pos h]
  · rw [if_neg h, if_neg h]

theorem room_pos : 0 < room limits s key ↔ (s.hits key).length < limits.max ∧ s.entries < limits.maxEntries ∧
    ((s.hits key).length = 0 → s.buckets.size < limits.maxBuckets) := by
  unfold room
  split <;> omega

theorem take_eq : s.take limits key now =
    if 0 < room limits (s.ready limits key now) key then (true, grant (s.ready limits key now) key now)
    else (false, s.ready limits key now) := by
  unfold Limiter.take
  dsimp only
  have hready : ((s.sweep limits now).trim limits key now).1 = s.ready limits key now := rfl
  rw [trim_hits_self, hready]
  by_cases hroom : 0 < room limits (s.ready limits key now) key
  · rw [if_pos hroom]
    obtain ⟨hmax, hentries, hbuckets⟩ := room_pos.1 hroom
    rw [if_neg (by omega), if_neg (by omega)]
    rfl
  · rw [if_neg hroom]
    rw [room_pos] at hroom
    split
    · rfl
    · rw [if_pos (by omega)]

theorem grant_hits : (grant s key now).hits other = if other = key then s.hits key ++ [now]
    else s.hits other := by
  unfold Limiter.hits grant
  dsimp only
  rw [OrdMap.get?_set]
  split <;> rfl

theorem grant_size : (grant s key now).buckets.size + (s.buckets.get? key).elim 0
    (fun _ => 1) = s.buckets.size + 1 := by
  rw [← OrdMap.sum_one, ← OrdMap.sum_one]
  exact OrdMap.sum_set

theorem grant_consistent (hs : Consistent limits s) (hroom : 0 < room limits s key) :
    Consistent limits (grant s key now) := by
  obtain ⟨_, hentries_lt, hbuckets⟩ := room_pos.1 hroom
  have hsum : (grant s key now).buckets.sum List.length + (s.hits key).length =
      s.buckets.sum List.length + (s.hits key ++ [now]).length := by
    rw [← elim_length]
    exact OrdMap.sum_set
  have hsize := @grant_size s key now
  have hentries := hs.entries
  have hsize_le := hs.size_le
  rw [List.length_append, List.length_singleton] at hsum
  refine ⟨?_, ?_, ?_, fun other hits hget => ?_⟩
  · show s.entries + 1 = _
    omega
  · show s.entries + 1 ≤ _
    omega
  · by_cases hempty : (s.hits key).length = 0
    · have := hbuckets hempty
      omega
    · rw [get?_of_hits hempty, Option.elim_some] at hsize
      omega
  · change (s.buckets.set key (s.hits key ++ [now])).get? other = some hits at hget
    rw [OrdMap.get?_set] at hget
    split at hget
    · exact Option.some.inj hget ▸ by simp
    · exact hs.nonempty other hits hget

theorem grant_settled (hs : Settled limits s key now) (hroom : 0 < room limits s key) :
    Settled limits (grant s key now) key now := by
  refine ⟨grant_consistent hs.consistent hroom, hs.swept, ?_⟩
  rw [grant_hits, if_pos rfl]
  have hwindow : (0 : ℚ) < limits.windowMs := by exact_mod_cast limits.windowMs_pos
  have hnow : live limits now [now] = [now] := List.filter_eq_self.2 fun t ht => by
    rw [List.mem_singleton.1 ht]
    exact decide_eq_true (by linarith)
  have hsplit : live limits now (s.hits key ++ [now]) = live limits now (s.hits key) ++
      live limits now [now] :=
    List.filter_append ..
  rw [hsplit, hs.trimmed, hnow]

theorem room_grant (hroom : 0 < room limits s key) :
    room limits (grant s key now) key = room limits s key - 1 := by
  obtain ⟨hmax, hentries, hbuckets⟩ := room_pos.1 hroom
  have hlength : ((grant s key now).hits key).length = (s.hits key).length + 1 := by
    rw [grant_hits, if_pos rfl, List.length_append, List.length_singleton]
  have hadded : (grant s key now).entries = s.entries + 1 := rfl
  unfold room
  rw [hlength, hadded, if_neg (by omega), if_neg (by omega)]
  omega

/-- A further call at the instant of the last one decides by the room that is left. -/
theorem Settled.ready (hs : Settled limits s key now) :
    Settled limits (s.ready limits key now) key now ∧
    room limits (s.ready limits key now) key = room limits s key := by
  refine ⟨(ready_spec hs.consistent key now).1, ?_⟩
  have hsweep : s.sweep limits now = s := if_pos hs.swept
  have hsum := trim_sum limits s key now
  have hready : s.ready limits key now = (s.trim limits key now).1 := by rw [Limiter.ready, hsweep]
  have hhits : (s.ready limits key now).hits key = s.hits key := by
    rw [hready, trim_hits, if_pos rfl, hs.trimmed]
  have hentries : (s.ready limits key now).entries = s.entries := by
    rw [hready, trim_entries, hs.trimmed, Int.sub_self, Int.sub_zero]
  have hsize : (s.hits key).length = 0 → (s.ready limits key now).buckets.size = s.buckets.size :=
    fun hempty => by
    have hnone := hs.consistent.get?_eq_none hempty
    have herase := OrdMap.sum_erase (m := s.buckets) (k := key) (f := fun _ => 1)
    rw [hnone, OrdMap.sum_one, OrdMap.sum_one] at herase
    rw [hready, trim_buckets, if_pos (by rw [hs.trimmed, List.length_eq_zero_iff.1 hempty])]
    exact herase
  unfold room
  rw [hhits, hentries]
  by_cases hempty : (s.hits key).length = 0
  · rw [hsize hempty]
  · rw [if_neg fun h => hempty h.1, if_neg fun h => hempty h.1]

/-- The state after `n` calls of `take` at one instant. -/
def takes (limits : Limits) (key : String) (now : ℚ) : Nat → Limiter → Limiter
  | 0, s => s
  | n + 1, s => takes limits key now n (s.take limits key now).2

theorem take_fst (hs : Settled limits s key now) : (s.take limits key now).1 = true ↔
    0 < room limits s key := by
  rw [take_eq, hs.ready.2]
  split <;> simp_all

theorem take_snd (hs : Settled limits s key now) (hroom : 0 < room limits s key) :
    Settled limits (s.take limits key now).2 key now ∧
    room limits (s.take limits key now).2 key = room limits s key - 1 := by
  obtain ⟨hready, hsame⟩ := hs.ready
  rw [take_eq, if_pos (hsame ▸ hroom)]
  exact ⟨grant_settled hready (hsame ▸ hroom), by rw [room_grant (hsame ▸ hroom), hsame]⟩

theorem takes_spec : ∀ (n : Nat) (s : Limiter), Settled limits s key now → n ≤ room limits s key →
    Settled limits (takes limits key now n s) key now ∧
    room limits (takes limits key now n s) key = room limits s key - n
  | 0, s, hs, _ => ⟨hs, by simp [takes]⟩
  | n + 1, s, hs, hn => by
    have hroom : 0 < room limits s key := by omega
    obtain ⟨hnext, hless⟩ := take_snd hs hroom
    obtain ⟨hsettled, heq⟩ := takes_spec n _ hnext (by omega)
    refine ⟨hsettled, ?_⟩
    rw [takes, heq, hless]
    omega

theorem room_nonneg : 0 ≤ room limits s key := by
  unfold room
  split <;> omega

/-- Just as many calls of `take` at one instant are admitted as there is room. -/
theorem room_eq_iff (hs : Settled limits s key now) (n : Nat) : room limits s key = n ↔
    (∀ i < n, ((takes limits key now i s).take limits key now).1 = true) ∧
      ((takes limits key now n s).take limits key now).1 = false := by
  have hadmits : ∀ i : Nat, i ≤ room limits s key →
      (((takes limits key now i s).take limits key now).1 = true ↔ (i : Int) < room limits s key) :=
        fun i hi => by
    obtain ⟨hsettled, heq⟩ := takes_spec i s hs hi
    rw [take_fst hsettled, heq]
    omega
  obtain ⟨m, hm⟩ := Int.eq_ofNat_of_zero_le (@room_nonneg limits s key)
  constructor
  · intro h
    refine ⟨fun i hi => (hadmits i (by omega)).2 (by omega), ?_⟩
    rw [Bool.eq_false_iff]
    exact fun htaken => absurd ((hadmits n (by omega)).1 htaken) (by omega)
  · rintro ⟨htaken, hdenied⟩
    rcases lt_trichotomy m n with h | h | h
    · have := (hadmits m (by omega)).1 (htaken m h)
      omega
    · omega
    · have := (hadmits n (by omega)).2 (by omega)
      rw [hdenied] at this
      cases this

end Calls

/-! ### Sequences of calls -/

/-- The methods of a limiter. -/
inductive Call where
  | take (key : String) (now : ℚ)
  | remaining (key : String) (now : ℚ)
  | reset (key : String)

/-- What the clock says, where the call reads it. -/
def Call.now : Call → Option ℚ
  | .take _ now | .remaining _ now => some now
  | .reset _ => none

/-- The state after a call, and whether it admitted something. -/
def step (limits : Limits) (s : Limiter) : Call → Limiter × Bool
  | .take key now => ((s.take limits key now).2, (s.take limits key now).1)
  | .remaining key now => ((s.remaining limits key now).2, false)
  | .reset key => (s.reset key, false)

def run (limits : Limits) : Limiter → List Call → Limiter × List (Call × Bool)
  | s, [] => (s, [])
  | s, call :: calls =>
    let (s, admitted) := step limits s call
    let (s, log) := run limits s calls
    (s, (call, admitted) :: log)

/-- The times at which something was admitted for `key`. -/
def admitted (key : String) (log : List (Call × Bool)) : List ℚ :=
  log.filterMap fun
    | (.take k now, true) => if k = key then some now else none
    | _ => none

/-- One more call after the hits since the last reset of `key`. -/
def since (key : String) (hits : List ℚ) : Call × Bool → List ℚ
  | (.take k now, true) => if k = key then hits ++ [now] else hits
  | (.reset k, _) => if k = key then [] else hits
  | _ => hits

/-- The times lie within less than a window. -/
def Short (limits : Limits) (p : ℚ → Bool) : Prop := ∀ x y, p x → p y → y - x < limits.windowMs

/-- The hits since the last reset, of which the buckets hold what is live. -/
structure Covered (limits : Limits) (s : Limiter) (last : Option ℚ) (hits : String → List ℚ) : Prop where
  consistent : Consistent limits s
  kept : ∀ key n, (∀ t ∈ last, t ≤ n) → live limits n (s.hits key) = live limits n (hits key)
  bounded : ∀ key p, Short limits p → (((hits key).filter p).length : Int) ≤ limits.max

section Runs

variable {limits : Limits} {s s' : Limiter} {key : String} {now : ℚ} {last : Option ℚ}
  {hits : String → List ℚ}

theorem Covered.thinned (h : Covered limits s last hits) (hlast : ∀ t ∈ last, t ≤ now)
    (hconsistent : Consistent limits s')
    (hthinned : Thinned limits now s s') : Covered limits s' (some now) hits := by
  refine ⟨hconsistent, fun key n hn => ?_, h.bounded⟩
  have hnow : now ≤ n := hn now rfl
  rw [hthinned key n hnow]
  exact h.kept key n fun t ht => (hlast t ht).trans hnow

theorem Covered.grant (h : Covered limits s (some now) hits) (hs : Settled limits s key now)
    (hroom : 0 < room limits s key) :
    Covered limits (grant s key now) (some now) fun other => if other = key then hits key ++ [now]
    else hits other := by
  refine ⟨grant_consistent hs.consistent hroom, fun other n hn => ?_, fun other p hp => ?_⟩
  · rw [grant_hits]
    split
    · have happend : ∀ l : List ℚ, live limits n (l ++ [now]) = live limits n l ++
          live limits n [now] := fun l =>
        List.filter_append ..
      rw [happend, happend, h.kept key n hn]
    · exact h.kept other n hn
  · split
    · rw [List.filter_append, List.length_append]
      by_cases hnow : p now = true
      · -- What is in the window with `now` is live at `now`.
        have hlive : (hits key).filter p = (live limits now (hits key)).filter p := by
          unfold live
          rw [List.filter_filter]
          refine List.filter_congr fun x _ => ?_
          by_cases hx : p x = true
          · have := hp x now hx hnow
            rw [hx, Bool.true_and, eq_comm, decide_eq_true_eq]
            linarith
          · rw [Bool.not_eq_true] at hx
            rw [hx, Bool.false_and]
        have hkept := h.kept key now fun t ht => le_of_eq (Option.some.inj ht).symm
        have hle : ((hits key).filter p).length ≤ (s.hits key).length := by
          rw [hlive, ← hkept, hs.trimmed]
          exact List.length_filter_le _ _
        have hmax := (room_pos.1 hroom).1
        have hone : ([now].filter p).length ≤ 1 := List.length_filter_le _ _
        omega
      · have hnone : [now].filter p = [] := List.filter_cons_of_neg hnow
        rw [hnone]
        exact h.bounded key p hp
    · exact h.bounded other p hp

theorem reset_consistent (hs : Consistent limits s) (key : String) : Consistent limits (s.reset key) := by
  have hsum := OrdMap.sum_erase (m := s.buckets) (k := key) (f := List.length)
  have hsize := OrdMap.sum_erase (m := s.buckets) (k := key) (f := fun _ => 1)
  rw [elim_length] at hsum
  rw [OrdMap.sum_one, OrdMap.sum_one] at hsize
  have hentries := hs.entries
  have hentries_le := hs.entries_le
  have hsize_le := hs.size_le
  refine ⟨?_, ?_, ?_, fun other hits hget => ?_⟩
  · show s.entries - _ = (((s.buckets.erase key).sum List.length : Nat) : Int)
    omega
  · show s.entries - _ ≤ _
    omega
  · show ((s.buckets.erase key).size : Int) ≤ _
    omega
  · change (s.buckets.erase key).get? other = some hits at hget
    by_cases hother : other = key
    · rw [hother, OrdMap.get?_erase_self] at hget
      cases hget
    · rw [OrdMap.get?_erase_of_ne hother] at hget
      exact hs.nonempty other hits hget

theorem Covered.reset (h : Covered limits s last hits) (key : String) :
    Covered limits (s.reset key) last fun other => if other = key then [] else hits other := by
  refine ⟨reset_consistent h.consistent key, fun other n hn => ?_, fun other p hp => ?_⟩
  · rw [Limiter.reset, hits_erase]
    split
    · rfl
    · exact h.kept other n hn
  · split
    · exact Int.le_of_lt limits.max_pos
    · exact h.bounded other p hp

/-- One call. -/
theorem step_covered (h : Covered limits s last hits) (call : Call)
    (hclock : ∀ now ∈ call.now, ∀ t ∈ last, t ≤ now) :
    Covered limits (step limits s call).1 (call.now.or last) fun key => since key (hits key)
    (call, (step limits s call).2) := by
  cases call with
  | take key now =>
    obtain ⟨hsettled, hthinned⟩ := ready_spec h.consistent key now
    have hready := h.thinned (hclock now rfl) hsettled.consistent hthinned
    show Covered limits (s.take limits key now).2 (some now) fun other =>
      since other (hits other) (.take key now, (s.take limits key now).1)
    rw [take_eq]
    split
    · next hroom =>
      have hgrant := hready.grant hsettled hroom
      refine ⟨hgrant.consistent, ?_, ?_⟩
      · intro other n hn
        rw [hgrant.kept other n hn]
        simp only [since, eq_comm (a := other)]
        split
        · next hkey => rw [hkey]
        · rfl
      · intro other p hp
        have := hgrant.bounded other p hp
        simp only [since, eq_comm (a := other)] at this ⊢
        split
        · next hkey => simpa [hkey] using this
        · next hkey => simpa [hkey] using this
    · exact hready
  | remaining key now =>
    obtain ⟨hsettled, hthinned⟩ := ready_spec h.consistent key now
    show Covered limits (s.remaining limits key now).2 (some now) hits
    rw [remaining_eq]
    exact h.thinned (hclock now rfl) hsettled.consistent hthinned
  | reset key =>
    have hreset := h.reset key
    refine ⟨hreset.consistent, fun other n hn => ?_, fun other p hp => ?_⟩
    · rw [step, hreset.kept other n hn]
      simp only [since, eq_comm (a := other)]
    · have := hreset.bounded other p hp
      simpa only [since, eq_comm (a := other)] using this

theorem step_consistent (hs : Consistent limits s) (call : Call) :
    Consistent limits (step limits s call).1 := by
  cases call with
  | take key now =>
    have hready := (ready_spec hs key now).1.consistent
    show Consistent limits (s.take limits key now).2
    rw [take_eq]
    split
    · next hroom => exact grant_consistent hready hroom
    · exact hready
  | remaining key now =>
    show Consistent limits (s.remaining limits key now).2
    rw [remaining_eq]
    exact (ready_spec hs key now).1.consistent
  | reset key => exact reset_consistent hs key

theorem run_consistent : ∀ (calls : List Call) (s : Limiter), Consistent limits s →
    Consistent limits (run limits s calls).1
  | [], _, hs => hs
  | call :: calls, _, hs => run_consistent calls _ (step_consistent hs call)

/-- At every point of a run, what was admitted since the last reset is bounded in every window. -/
theorem run_bounded (calls : List Call) {before after : List (Call × Bool)} (h : Covered limits s last hits)
    (hclock : (last.toList ++ calls.filterMap Call.now).Pairwise (· ≤ ·))
    (hlog : (run limits s calls).2 = before ++ after)
    (key : String) {p : ℚ → Bool} (hp : Short limits p) :
    (((before.foldl (since key) (hits key)).filter p).length : Int) ≤ limits.max := by
  induction before generalizing calls s last hits with
  | nil => exact h.bounded key p hp
  | cons e before ih =>
    cases calls with
    | nil => cases hlog
    | cons call calls =>
      obtain ⟨rfl, hnext⟩ := List.cons.inj hlog
      have hnows : (call :: calls).filterMap Call.now = call.now.toList ++ calls.filterMap Call.now := by
        cases hnow : call.now <;> simp [hnow]
      rw [hnows] at hclock
      obtain ⟨hlast, hrest, hle⟩ := List.pairwise_append.1 hclock
      have hstep := step_covered h call fun now hnow t ht =>
        hle t (Option.mem_toList.2 ht) now (List.mem_append_left _ (Option.mem_toList.2 hnow))
      refine ih calls hstep ?_ hnext
      cases hnow : call.now with
      | none =>
        rw [hnow] at hclock
        exact hclock
      | some now =>
        rw [hnow] at hrest
        exact hrest

theorem foldl_since {log : List (Call × Bool)} (h : ∀ e ∈ log, e.1 ≠ .reset key) (hits : List ℚ) :
    log.foldl (since key) hits = hits ++ admitted key log := by
  induction log generalizing hits with
  | nil => simp [admitted]
  | cons e log ih =>
    obtain ⟨hreset, hrest⟩ := List.forall_mem_cons.1 h
    rw [List.foldl_cons, ih hrest]
    have happend : since key hits e = hits ++ admitted key [e] := by
      obtain ⟨call, b⟩ := e
      cases call with
      | take k now =>
        by_cases hk : k = key <;> cases b <;> simp [since, admitted, hk]
      | remaining k now => simp [since, admitted]
      | reset k =>
        have hk : k ≠ key := fun hk => hreset (congrArg Call.reset hk)
        simp [since, admitted, hk]
    have hcons : admitted key (e :: log) = admitted key [e] ++ admitted key log := by
      unfold admitted
      rw [← List.filterMap_append]
      rfl
    rw [happend, hcons, List.append_assoc]

theorem fresh_covered : Covered limits .fresh none fun _ => [] where
  consistent := ⟨rfl, Int.le_of_lt limits.maxEntries_pos, Int.le_of_lt limits.maxBuckets_pos, nofun⟩
  kept _ _ _ := rfl
  bounded _ _ _ := Int.le_of_lt limits.max_pos

end Runs

/-- The caps hold, a key's quota holds in every window between its resets, and `remaining` counts
what is admitted. -/
theorem rate_limit_exact (limits : Limits) (calls : List Call) :
    let s := (run limits .fresh calls).1
    Consistent limits s ∧
      ((calls.filterMap Call.now).Pairwise (· ≤ ·) → ∀ key before between after,
        (run limits .fresh calls).2 = before ++ between ++ after → (∀ e ∈ between, e.1 ≠ .reset key) →
          ∀ t : ℚ,
          (((admitted key between).filter fun x => t ≤ x ∧ x < t + limits.windowMs).length : Int) ≤
            limits.max ∧
            (((admitted key between).filter fun x => t < x ∧ x ≤ t + limits.windowMs).length : Int) ≤
              limits.max) ∧
      ∀ key now, let next := (s.remaining limits key now).2
        ∀ n : Nat, (s.remaining limits key now).1 = n ↔
          (∀ i < n, ((takes limits key now i next).take limits key now).1 = true) ∧
            ((takes limits key now n next).take limits key now).1 = false := by
  intro s
  have hs : Consistent limits s := run_consistent calls _ fresh_covered.consistent
  refine ⟨hs, fun hclock key before between after hlog hreset t => ?_, fun key now n => ?_⟩
  · have hbounded : ∀ p, Short limits p →
        (((admitted key between).filter p).length : Int) ≤ limits.max := fun p hp => by
      have hrun := run_bounded calls fresh_covered hclock hlog key hp
      rw [List.foldl_append, foldl_since hreset, List.filter_append, List.length_append] at hrun
      omega
    refine ⟨hbounded _ fun x y hx hy => ?_, hbounded _ fun x y hx hy => ?_⟩
    · have hx := of_decide_eq_true hx
      have hy := of_decide_eq_true hy
      linarith [hx.1, hy.2]
    · have hx := of_decide_eq_true hx
      have hy := of_decide_eq_true hy
      linarith [hx.1, hy.2]
  · rw [remaining_eq]
    exact room_eq_iff (ready_spec hs key now).1 n

/-- A limiter of two calls a second, under the default caps. -/
theorem rate_limit_exact_two : ∃ limits, createRateLimiter ⟨1000, 2, none, none⟩ = .ok limits ∧
    ((run limits .fresh [.take "a" 0, .take "a" 1, .take "a" 2, .take "a" 1000]).2.map Prod.snd) =
    [true, true, false, true] ∧
      Consistent limits (run limits .fresh [.take "a" 0, .take "a" 1, .take "a" 2, .take "a" 1000]).1 := by
  have hconfig : createRateLimiter ⟨1000, 2, none, none⟩ = .ok ⟨1000, 2, 10000,
        100000, by decide, by decide, by decide, by decide⟩ :=
    rfl
  exact ⟨_, hconfig, by decide +kernel, (rate_limit_exact _ _).1⟩

end RateLimit
