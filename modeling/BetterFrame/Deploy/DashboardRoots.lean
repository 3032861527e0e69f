import BetterFrame.Deploy.PublicIngress
import BetterFrame.Lib.Run

/-!
# Dashboard roots and public requests

`rootCache`, `changingFlows` and `publicDashboardRequest` of `manager.mjs`, for one tenant: the
flows that its runtime has deployed, the cache objects that requests and mutations hold on to, and
what waits on them. `roots_guarded` says when no public request is let through to a dashboard.
-/

namespace Manager

open Text Url

/-- What is read of a node of a flow; a path that is no string is none. -/
structure Node where
  type : String
  path : Option String
deriving DecidableEq

/-- `replace(/\/$/, "")` -/
def withoutSlash (cs : List Char) : List Char := if cs.getLast? = some '/' then cs.dropLast else cs

/-- The path of a dashboard node without its last slash, and nothing for one that is not acceptable. -/
def dashboardPath (value : Option String) : Option (List Char) :=
  match value with
  | none => none
  | some value =>
    let cs := value.toList
    if cs.head? ≠ some '/' ∨ cs.any (fun c => c = '\\' || c = '%' || c = '?' || c = '#' || c.toNat ≤ 0x20) ∨
        "//".toList <:+: cs then
      none
    else
      let path := withoutSlash cs
      if path = [] ∨ (splitOn '/' path).any (fun part => part = ".".toList || part = "..".toList) then
        none else some path

/-- The roots of the dashboards, and nothing for one whose path is not acceptable. -/
def dashboardRootsOf (flows : List Node) : List (Option (List Char)) :=
  (flows.filter (·.type = "ui-base")).map fun node => dashboardPath node.path

/-- A request that `tenantForRequest` marked public and found a tenant for. -/
structure PublicRequest (platform : Platform) where
  req : Request
  isPublic : req.bfPublic = true
  routed : ∃ tenants given tenant, platform.tenantForRequest tenants given = .ok (req, some tenant)

namespace DashboardRoots

/-- A mutation under way and the cache that it counts on. -/
structure Mutation where
  id : Nat
  cache : Nat

/-- What a process knows of the dashboards, and the load that is under way. -/
structure Cache where
  roots : Option (List (Option (List Char)))
  loading : Option Nat
  generation : Nat
  mutations : Nat
  retryAfter : Int

def Cache.new : Cache := ⟨none, none, 0, 0, 0⟩

/-- Forgets the roots, and the answer of any fetch under way. -/
def Cache.invalidate (cache : Cache) : Cache :=
  { cache with generation := cache.generation + 1, roots := none, loading := none, retryAfter := 0 }

/-- Before a load's `then`, before its `finally`, and after it. -/
inductive Stage where
  | fetching
  | settled
  | ended
deriving DecidableEq

/-- A load of the roots for the generation its cache had, with the flows that were deployed since it began. -/
structure Load where
  cache : Nat
  generation : Nat
  stage : Stage
  seen : List (List Node)

/-- A request that awaits a load. -/
structure Waiting (platform : Platform) where
  cache : Nat
  load : Nat
  request : PublicRequest platform

/-- Caches, loads and requests are named by numbers. `passed` is the request that the last step let
through. -/
structure State (platform : Platform) where
  flows : List Node
  current : Option Nat
  created : Nat
  caches : Nat → Cache
  changing : List Mutation
  loads : Nat → Option Load
  requests : Nat → Option (Waiting platform)
  passed : Option (PublicRequest platform)

/-- A step: a mutation begins, deploys or ends, the runtime restarts, a request comes, or a load of
the flows ends. -/
inductive Label (platform : Platform) where
  | begins (m : Nat)
  | deploys (flows : List Node)
  | finishes (m : Nat)
  | restarts
  | request (r l : Nat) (request : PublicRequest platform) (now : Int)
  | loaded (l : Nat) (flows : List Node)
  | failed (l : Nat) (now : Int)
  | ended (l : Nat)
  | resumes (r : Nat)

variable {platform : Platform}

namespace State

variable (s : State platform)

def init (flows : List Node) : State platform :=
  ⟨flows, none, 0, fun _ => .new, [], fun _ => none, fun _ => none, none⟩

def setCache (i : Nat) (cache : Cache) : State platform :=
  { s with caches := Function.update s.caches i cache }

def setLoad (l : Nat) (load : Load) : State platform :=
  { s with loads := Function.update s.loads l (some load) }

/-- The cache in use, which is a new one after a restart. -/
def rootCache : Nat × State platform :=
  match s.current with
  | some i => (i, s)
  | none => (s.created, { s with current := some s.created, created := s.created + 1 })

/-- A mutation begins: the cache in use counts it. -/
def begins (m : Nat) : State platform :=
  let (i, s) := s.rootCache
  { s.setCache i { s.caches i with mutations := (s.caches i).mutations + 1 }.invalidate with
    changing := ⟨m, i⟩ :: s.changing }

/-- A mutation finishes once. -/
def finishes (m : Nat) : State platform :=
  match s.changing.find? (·.id = m) with
  | none => s
  | some mutation =>
    { s.setCache mutation.cache
        { s.caches mutation.cache with mutations := (s.caches mutation.cache).mutations - 1 }.invalidate with
      changing := s.changing.eraseP (·.id = m) }

/-- `cache.roots.some(...)` -/
def underRoot (roots : List (Option (List Char))) (path : List Char) : Bool :=
  roots.any fun base =>
    match base with
    | none => true
    | some base => path = base || (base ++ ['/']).isPrefixOf path

/-- What follows the `await`: the request passes when it is under none of the roots. -/
def answer (i : Nat) (request : PublicRequest platform) : State platform :=
  if (s.caches i).mutations ≠ 0 then s
  else
    match (s.caches i).roots, platform.newUrl request.req.url with
    | some roots, .ok url => if underRoot roots url.pathname then s else { s with passed := some request }
    | _, _ => s

/-- A public request: closed during a mutation, answered from the cache, or waiting for a load. -/
def publicDashboardRequest (r l : Nat) (request : PublicRequest platform) (now : Int) :
    Option (State platform) :=
  let (i, s) := s.rootCache
  let cache := s.caches i
  if cache.mutations ≠ 0 ∨ cache.retryAfter > now then some s
  else if cache.roots ≠ none then some (s.answer i request)
  else if s.requests r ≠ none then none
  else
    match cache.loading with
    | some l => some { s with requests := Function.update s.requests r (some ⟨i, l, request⟩) }
    | none =>
      if s.loads l ≠ none then none
      else
        let s := (s.setLoad l ⟨i, cache.generation, .fetching, [s.flows]⟩).setCache i
          { cache with loading := some l }
        some { s with requests := Function.update s.requests r (some ⟨i, l, request⟩) }

/-- A load takes effect on its cache only in the generation that it was begun in. -/
def settle (load : Load) (f : Cache → Cache) : State platform :=
  let cache := s.caches load.cache
  if cache.generation = load.generation then s.setCache load.cache (f cache) else s

end State

/-- One step. Flows are deployed while a mutation is under way, and a load returns flows deployed
since it began. -/
def step (platform : Platform) (given : State platform) (label : Label platform) : Option (State platform) :=
  let s := { given with passed := none }
  match label with
  | .begins m => if s.changing.any (·.id = m) then none else some (s.begins m)
  | .deploys flows =>
    if s.changing.isEmpty then none
    else some { s with flows, loads := fun l => (s.loads l).map fun load =>
      { load with seen := flows :: load.seen } }
  | .finishes m => some (s.finishes m)
  | .restarts => some { s with current := none }
  | .request r l request now => s.publicDashboardRequest r l request now
  | .loaded l flows =>
    match s.loads l with
    | some load =>
      if load.stage = .fetching ∧ flows ∈ load.seen then
        some ((s.settle load fun cache => { cache with roots := some (dashboardRootsOf flows) }).setLoad l
          { load with stage := .settled })
      else none
    | none => none
  | .failed l now =>
    match s.loads l with
    | some load =>
      if load.stage = .fetching then
        some ((s.settle load fun cache => { cache with retryAfter := now + 1000 }).setLoad l
          { load with stage := .settled })
      else none
    | none => none
  | .ended l =>
    match s.loads l with
    | some load =>
      if load.stage = .settled then
        some ((s.settle load fun cache => { cache with loading := none }).setLoad l
          { load with stage := .ended })
      else none
    | none => none
  | .resumes r =>
    match s.requests r with
    | some waiting =>
      if (s.loads waiting.load).any (·.stage = .ended) then
        some { s.answer waiting.cache waiting.request with requests := Function.update s.requests r none }
      else none
    | none => none

/-! ### Paths below a root -/

/-- The path is that of a dashboard at `value` or lies below it. -/
def Below (value : String) (path : List Char) : Prop :=
  path = withoutSlash value.toList ∨ withoutSlash value.toList ++ ['/'] <+: path

/-- What the request asks for, percent-decoded. -/
def Decoded (request : PublicRequest platform) (path : List Char) : Prop :=
  ∃ url, platform.newUrl request.req.url = .ok url ∧ decodeURIComponent url.pathname = some path

/-- The roots of the dashboards consist of characters that stand for themselves in the path of a URL. -/
def Plain (flows : List Node) : Prop :=
  ∀ node ∈ flows, node.type = "ui-base" → ∀ base, dashboardPath node.path = some base →
    ∀ c ∈ base, inPathSet c = false

theorem dashboardPath_some {value : String} {base : List Char} (h : dashboardPath (some value) = some base) :
    base = withoutSlash value.toList := by
  simp only [dashboardPath] at h
  split at h
  · cases h
  split at h
  · cases h
  · exact (Option.some.inj h).symm

theorem underRoot_encode {base path : List Char} (hbase : ∀ c ∈ base, inPathSet c = false)
    (h : path = base ∨ base ++ ['/'] <+: path) :
    encode inPathSet path = base ∨ base ++ ['/'] <+: encode inPathSet path := by
  rcases h with rfl | ⟨rest, rfl⟩
  · exact .inl (encode_eq_self hbase)
  · right
    have hself : encode inPathSet (base ++ ['/']) = base ++ ['/'] := by
      refine encode_eq_self fun c hc => ?_
      rcases List.mem_append.1 hc with hc | hc
      · exact hbase c hc
      · obtain rfl : c = '/' := by simpa using hc
        rfl
    refine ⟨encode inPathSet rest, ?_⟩
    calc base ++ ['/'] ++ encode inPathSet rest = encode inPathSet (base ++ ['/']) ++
        encode inPathSet rest := by rw [hself]
      _ = encode inPathSet (base ++ ['/'] ++ rest) := List.flatMap_append.symm

/-- What `new URL` finds in a public request is the encoding of the path that it asks for. -/
theorem exists_decoded (request : PublicRequest platform) :
    ∃ path url, platform.newUrl request.req.url = .ok url ∧ url.pathname = encode inPathSet path ∧
    Decoded request path := by
  obtain ⟨tenants, given, tenant, hrouted⟩ := request.routed
  obtain ⟨ss, query, hs, hp, -, hquery, hreq⟩ := Platform.tenantForRequest_public hrouted request.isPublic
  obtain ⟨url, hparse, hpathname⟩ := @parse_encode platform.absolute ss hs hp query hquery
  have hurl : platform.newUrl request.req.url = .ok url := by rw [hreq, Platform.newUrl, hparse]
  have hencode : url.pathname = encode inPathSet (join ss) := by rw [hpathname, encode_join (by rfl)]
  refine ⟨join ss, url, hurl, hencode, url, hurl, ?_⟩
  rw [hencode]
  exact decode_encode (Settled.join_percent hp)

/-- A request that is under none of the roots of plain flows is below none of their dashboards. -/
theorem not_below {flows : List Node} (hplain : Plain flows) {path : List Char}
    (h : State.underRoot (dashboardRootsOf flows) (encode inPathSet path) = false) {node : Node}
    (hnode : node ∈ flows)
    (htype : node.type = "ui-base") {value : String} (hvalue : node.path = some value) :
    ¬ Below value path := by
  intro hbelow
  have hmem : dashboardPath node.path ∈ dashboardRootsOf flows :=
    List.mem_map_of_mem (List.mem_filter.2 ⟨hnode, by simpa using htype⟩)
  have hnot := List.any_eq_false.1 h _ hmem
  cases hpath : dashboardPath node.path with
  | none => simp [hpath] at hnot
  | some base =>
    have hbase : base = withoutSlash value.toList := dashboardPath_some (hvalue ▸ hpath)
    rw [Below, ← hbase] at hbelow
    have hunder := underRoot_encode (hplain node hnode htype base hpath) hbelow
    rw [hpath] at hnot
    simp only [Bool.or_eq_true, decide_eq_true_eq, List.isPrefixOf_iff_prefix] at hnot
    exact hnot hunder

/-! ### What the caches know -/

namespace State

/-- The cache is in use, or a request holds on to it. -/
def Relevant (s : State platform) (i : Nat) : Prop := s.current = some i ∨
  ∃ r waiting, s.requests r = some waiting ∧ waiting.cache = i

/-- A load that will still set the roots of its cache. -/
def Live (s : State platform) (load : Load) : Prop :=
  load.stage = .fetching ∧ load.generation = (s.caches load.cache).generation

/-- Roots that a request may still read are those of the deployed flows, and no mutation is under
way. The same holds of the flows that a load may still bring. -/
structure Inv (s : State platform) : Prop where
  count : ∀ i, (s.caches i).mutations = s.changing.countP (·.cache = i)
  current_lt : ∀ i, s.current = some i → i < s.created
  load_lt : ∀ l load, s.loads l = some load → load.cache < s.created
  fresh : ∀ i, s.created ≤ i → (s.caches i).roots = none
  generation : ∀ l load, s.loads l = some load → load.generation ≤ (s.caches load.cache).generation
  roots : ∀ i, s.Relevant i → ∀ roots, (s.caches i).roots = some roots → s.changing = [] ∧
    roots = dashboardRootsOf s.flows
  live : ∀ l load, s.loads l = some load → s.Live load → s.Relevant load.cache →
    s.changing = [] ∧ ∀ flows ∈ load.seen, flows = s.flows
  waiting : ∀ r waiting, s.requests r = some waiting → ∀ m ∈ s.changing, m.cache = waiting.cache

/-- The request that was let through is under no dashboard, and no mutation is under way. -/
def Guarded (s : State platform) : Prop :=
  ∀ request ∈ s.passed, s.changing = [] ∧ ∃ path, Decoded request path ∧
    ∀ node ∈ s.flows, node.type = "ui-base" → ∀ value, node.path = some value → ¬ Below value path

variable {s : State platform}

theorem Inv.init (flows : List Node) : (State.init flows : State platform).Inv where
  count i := rfl
  current_lt := by simp [State.init]
  load_lt := by simp [State.init]
  fresh i _ := rfl
  generation := by simp [State.init]
  roots i _ roots h := by simp [State.init, Cache.new] at h
  live := by simp [State.init]
  waiting := by simp [State.init]

theorem Inv.rootCache (h : s.Inv) : s.rootCache.2.Inv ∧ s.rootCache.2.current = some s.rootCache.1 := by
  rw [State.rootCache]
  split
  · next i hi => exact ⟨h, hi⟩
  · next hnone =>
    have hrelevant : ∀ i, Relevant { s with current := some s.created, created := s.created + 1 } i →
        i = s.created ∨ s.Relevant i := by
      rintro i (hi | hi)
      · exact .inl (Option.some.inj hi).symm
      · exact .inr (.inr hi)
    refine ⟨⟨h.count, ?_, ?_, ?_, h.generation, ?_, ?_, h.waiting⟩, rfl⟩
    · intro i hi
      obtain rfl := Option.some.inj hi
      exact Nat.lt_succ_self _
    · exact fun l load hl => Nat.lt_succ_of_lt (h.load_lt l load hl)
    · exact fun i hi => h.fresh i (Nat.le_of_succ_le hi)
    · intro i hi roots hroots
      rcases hrelevant i hi with rfl | hi
      · rw [h.fresh _ (Nat.le_refl _)] at hroots
        cases hroots
      · exact h.roots i hi roots hroots
    · intro l load hl hlive hi
      rcases hrelevant _ hi with hi | hi
      · exact absurd hi (Nat.ne_of_lt (h.load_lt l load hl))
      · exact h.live l load hl hlive hi

theorem rootCache_frame (s : State platform) : s.rootCache.2.flows = s.flows ∧
    s.rootCache.2.changing = s.changing ∧
    s.rootCache.2.loads = s.loads ∧ s.rootCache.2.requests = s.requests ∧
    s.rootCache.2.passed = s.passed := by
  rw [State.rootCache]
  split <;> exact ⟨rfl, rfl, rfl, rfl, rfl⟩

theorem rootCache_of_current {i : Nat} (h : s.current = some i) : s.rootCache = (i, s) := by
  simp [State.rootCache, h]

/-- A cache forgets what it knows when a mutation begins or finishes. The others knew nothing. -/
theorem Inv.invalidate (h : s.Inv) {i n : Nat} {changing : List Mutation}
    (hn : n = changing.countP (·.cache = i))
    (hcount : ∀ j, j ≠ i → changing.countP (·.cache = j) = s.changing.countP (·.cache = j))
    (hknows : ∀ j, j ≠ i → s.Relevant j → s.changing ≠ [])
    (hwaiting : ∀ r waiting, s.requests r = some waiting → ∀ m ∈ changing, m.cache = waiting.cache) :
    Inv { s.setCache i (Cache.invalidate { s.caches i with mutations := n }) with changing } where
  count j := by
    by_cases hj : j = i
    · subst hj
      simp [setCache, Cache.invalidate, hn]
    · simp only [setCache, Function.update_of_ne hj]
      rw [h.count, hcount j hj]
  current_lt := h.current_lt
  load_lt := h.load_lt
  fresh j hj := by
    by_cases hij : j = i
    · subst hij
      simp [setCache, Cache.invalidate]
    · simpa [setCache, Function.update_of_ne hij] using h.fresh j hj
  generation l load hl := by
    have hle := h.generation l load hl
    by_cases hi : load.cache = i
    · simp only [setCache, hi, Function.update_self, Cache.invalidate]
      rw [hi] at hle
      omega
    · simpa [setCache, Function.update_of_ne hi] using hle
  roots j hj roots hroots := by
    by_cases hij : j = i
    · subst hij
      simp [setCache, Cache.invalidate] at hroots
    · simp only [setCache, Function.update_of_ne hij] at hroots
      exact absurd (h.roots j hj roots hroots).1 (hknows j hij hj)
  live l load hl hlive hj := by
    have hle := h.generation l load hl
    by_cases hi : load.cache = i
    · have heq := hlive.2
      simp only [setCache, hi, Function.update_self, Cache.invalidate] at heq
      rw [hi] at hle
      omega
    · have hbefore : s.Live load := by simpa [Live, setCache, Function.update_of_ne hi] using hlive
      exact absurd (h.live l load hl hbefore hj).1 (hknows _ hi hj)
  waiting := hwaiting

theorem Inv.begins (h : s.Inv) {m : Nat} (hcurrent : ∀ r waiting, s.requests r = some waiting →
    s.current = some waiting.cache) :
    (s.begins m).Inv := by
  obtain ⟨hinv, hi⟩ := h.rootCache
  obtain ⟨-, hchanging, -, hrequests, -⟩ := rootCache_frame s
  have hcache : ∀ r waiting, s.requests r = some waiting → waiting.cache = s.rootCache.1 := by
    intro r waiting hr
    rw [rootCache_of_current (hcurrent r waiting hr)]
  have hbegins : s.begins m =
    { s.rootCache.2.setCache s.rootCache.1 (Cache.invalidate { s.rootCache.2.caches s.rootCache.1 with
      mutations := (s.rootCache.2.caches s.rootCache.1).mutations + 1 }) with
      changing := ⟨m, s.rootCache.1⟩ :: s.rootCache.2.changing } := rfl
  rw [hbegins]
  refine hinv.invalidate ?_ ?_ ?_ ?_
  · rw [hinv.count]
    simp
  · intro j hj
    simp [Ne.symm hj]
  · rintro j hj (hcur | ⟨r, waiting, hr, rfl⟩)
    · exact absurd (Option.some.inj (hcur.symm.trans hi)) hj
    · exact absurd (hcache r waiting (hrequests ▸ hr)) hj
  · intro r waiting hr m' hm'
    rcases List.mem_cons.1 hm' with rfl | hm'
    · exact (hcache r waiting (hrequests ▸ hr)).symm
    · exact hinv.waiting r waiting hr m' hm'

theorem Inv.finishes (h : s.Inv) {m : Nat} : (s.finishes m).Inv := by
  rw [State.finishes]
  split
  · exact h
  · next mutation hfind =>
    obtain ⟨hid, before, after, hchanging, hbefore⟩ := List.find?_eq_some_iff_append.1 hfind
    have herase : s.changing.eraseP (·.id = m) = before ++ after := by
      rw [hchanging, List.eraseP_append_right _ (by simpa using hbefore)]
      simp [of_decide_eq_true hid]
    rw [herase]
    refine h.invalidate ?_ ?_ ?_ ?_
    · rw [h.count, hchanging]
      simp
    · intro j hj
      simp [hchanging, Ne.symm hj]
    · simp [hchanging]
    · intro r waiting hr m' hm'
      refine h.waiting r waiting hr m' ?_
      rw [hchanging]
      simp only [List.mem_append, List.mem_cons] at hm' ⊢
      tauto

theorem Inv.pass (h : s.Inv) (passed : Option (PublicRequest platform)) : Inv { s with passed } :=
  ⟨h.count, h.current_lt, h.load_lt, h.fresh, h.generation, h.roots, h.live, h.waiting⟩

/-- A change of a cache that concerns neither its mutations nor its roots. -/
theorem Inv.touch (h : s.Inv) {i : Nat} {cache : Cache}
    (hmutations : cache.mutations = (s.caches i).mutations)
    (hgeneration : cache.generation = (s.caches i).generation) (hroots : cache.roots = (s.caches i).roots) :
    (s.setCache i cache).Inv := by
  have hm (j : Nat) : ((s.setCache i cache).caches j).mutations = (s.caches j).mutations := by
    by_cases hj : j = i <;> simp [setCache, hj, hmutations]
  have hg (j : Nat) : ((s.setCache i cache).caches j).generation = (s.caches j).generation := by
    by_cases hj : j = i <;> simp [setCache, hj, hgeneration]
  have hr (j : Nat) : ((s.setCache i cache).caches j).roots = (s.caches j).roots := by
    by_cases hj : j = i <;> simp [setCache, hj, hroots]
  exact ⟨fun j => (hm j).trans (h.count j), h.current_lt, h.load_lt, fun j hj => (hr j).trans (h.fresh j hj),
    fun l load hl => (hg _).symm ▸ h.generation l load hl, fun j hj roots hroots =>
      h.roots j hj roots (hr j ▸ hroots),
    fun l load hl hlive hj => h.live l load hl ⟨hlive.1, hlive.2.trans (hg _)⟩ hj, h.waiting⟩

/-- The callbacks of a load have begun to run. -/
theorem Inv.runs (h : s.Inv) {l : Nat} {load : Load} (hl : s.loads l = some load) {stage : Stage}
    (hstage : stage ≠ .fetching) :
    (s.setLoad l { load with stage }).Inv := by
  have hbefore {l' : Nat} {load' : Load} (hl' : (s.setLoad l { load with stage }).loads l' = some load') :
      load' = { load with stage } ∨ s.loads l' = some load' := by
    simp only [setLoad, Function.update_apply] at hl'
    split at hl'
    · exact .inl (Option.some.inj hl').symm
    · exact .inr hl'
  refine ⟨h.count, h.current_lt, ?_, h.fresh, ?_, h.roots, ?_, h.waiting⟩
  · intro l' load' hl'
    rcases hbefore hl' with rfl | hl'
    · exact h.load_lt l load hl
    · exact h.load_lt l' load' hl'
  · intro l' load' hl'
    rcases hbefore hl' with rfl | hl'
    · exact h.generation l load hl
    · exact h.generation l' load' hl'
  · intro l' load' hl' hlive hi
    rcases hbefore hl' with rfl | hl'
    · exact absurd hlive.1 hstage
    · exact h.live l' load' hl' hlive hi

/-- The flows that a load brings were deployed all the time while it could still bring them. -/
theorem Inv.brings (h : s.Inv) {l : Nat} {load : Load} (hl : s.loads l = some load)
    (hlive : s.Live load) {flows : List Node} (hflows : flows ∈ load.seen) :
    (s.setCache load.cache { s.caches load.cache with roots := some (dashboardRootsOf flows) }).Inv := by
  have hm (j : Nat) : ((s.setCache load.cache { s.caches load.cache with
    roots := some (dashboardRootsOf flows) }).caches
      j).mutations = (s.caches j).mutations := by
    by_cases hj : j = load.cache <;> simp [setCache, hj]
  have hg (j : Nat) : ((s.setCache load.cache { s.caches load.cache with
    roots := some (dashboardRootsOf flows) }).caches
      j).generation = (s.caches j).generation := by
    by_cases hj : j = load.cache <;> simp [setCache, hj]
  refine ⟨fun j => (hm j).trans (h.count j), h.current_lt, h.load_lt, ?_, fun l' load' hl' =>
    (hg _).symm ▸ h.generation l' load' hl',
    ?_, fun l' load' hl' hlive' hj => h.live l' load' hl' ⟨hlive'.1, hlive'.2.trans (hg _)⟩ hj, h.waiting⟩
  · intro j hj
    have hne : j ≠ load.cache := fun he => absurd (h.load_lt l load hl) (Nat.not_lt.2 (he ▸ hj))
    simpa [setCache, Function.update_of_ne hne] using h.fresh j hj
  · intro j hj roots hroots
    by_cases hij : j = load.cache
    · subst hij
      obtain ⟨hquiet, hseen⟩ := h.live l load hl hlive hj
      simp only [setCache, Function.update_self, Option.some.injEq] at hroots
      exact ⟨hquiet, by rw [← hroots, hseen flows hflows]; rfl⟩
    · simp only [setCache, Function.update_of_ne hij] at hroots
      exact h.roots j hj roots hroots

theorem Inv.begins_load (h : s.Inv) {i l : Nat} (hi : s.current = some i) (hquiet : s.changing = []) :
    (s.setLoad l ⟨i, (s.caches i).generation, .fetching, [s.flows]⟩).Inv := by
  have hbefore {l' : Nat} {load' : Load}
      (hl' : (s.setLoad l ⟨i, (s.caches i).generation, .fetching, [s.flows]⟩).loads l' = some load') :
      load' = ⟨i, (s.caches i).generation, .fetching, [s.flows]⟩ ∨ s.loads l' = some load' := by
    simp only [setLoad, Function.update_apply] at hl'
    split at hl'
    · exact .inl (Option.some.inj hl').symm
    · exact .inr hl'
  refine ⟨h.count, h.current_lt, ?_, h.fresh, ?_, h.roots, ?_, h.waiting⟩
  · intro l' load' hl'
    rcases hbefore hl' with rfl | hl'
    · exact h.current_lt i hi
    · exact h.load_lt l' load' hl'
  · intro l' load' hl'
    rcases hbefore hl' with rfl | hl'
    · exact Nat.le_refl _
    · exact h.generation l' load' hl'
  · intro l' load' hl' hlive hj
    rcases hbefore hl' with rfl | hl'
    · exact ⟨hquiet, by simp [setLoad]⟩
    · exact h.live l' load' hl' hlive hj

/-- A request waits on the cache in use. -/
theorem Inv.waits (h : s.Inv) {i r : Nat} {waiting : Waiting platform} (hi : s.current = some i)
    (hcache : waiting.cache = i)
    (hquiet : s.changing = []) : Inv { s with requests := Function.update s.requests r (some waiting) } := by
  have hrelevant : ∀ j, Relevant { s with requests := Function.update s.requests r (some waiting) } j →
      s.Relevant j := by
    rintro j (hj | ⟨r', waiting', hr', rfl⟩)
    · exact .inl hj
    · simp only [Function.update_apply] at hr'
      split at hr'
      · obtain rfl := Option.some.inj hr'
        exact .inl (hcache ▸ hi)
      · exact .inr ⟨r', waiting', hr', rfl⟩
  refine ⟨h.count, h.current_lt, h.load_lt, h.fresh, h.generation, fun j hj => h.roots j (hrelevant j hj),
    fun l load hl hlive hj => h.live l load hl hlive (hrelevant _ hj), ?_⟩
  intro r' waiting' hr' m hm
  rw [hquiet] at hm
  cases hm

/-- Less is relevant. -/
theorem Inv.forgets (h : s.Inv) {current : Option Nat} {requests : Nat → Option (Waiting platform)}
    (hcurrent : ∀ i, current = some i → s.current = some i)
    (hrequests : ∀ r waiting, requests r = some waiting → s.requests r = some waiting) :
    Inv { s with current, requests } := by
  have hrelevant : ∀ j, Relevant { s with current, requests } j → s.Relevant j := by
    rintro j (hj | ⟨r, waiting, hr, rfl⟩)
    · exact .inl (hcurrent j hj)
    · exact .inr ⟨r, waiting, hrequests r waiting hr, rfl⟩
  exact ⟨h.count, fun i hi => h.current_lt i (hcurrent i hi), h.load_lt, h.fresh, h.generation,
    fun j hj => h.roots j (hrelevant j hj), fun l load hl hlive hj => h.live l load hl hlive (hrelevant _ hj),
    fun r waiting hr => h.waiting r waiting (hrequests r waiting hr)⟩

/-- Nothing that knows of the flows is relevant while they are deployed. -/
theorem Inv.deploys (h : s.Inv) {flows : List Node} (hchanging : s.changing ≠ []) :
    Inv { s with flows, loads := fun l => (s.loads l).map fun load =>
      { load with seen := flows :: load.seen } } := by
  have hbefore {l : Nat} {load : Load}
    (hl : ((s.loads l).map fun load => { load with seen := flows :: load.seen }) = some load) :
      ∃ load', s.loads l = some load' ∧ load = { load' with seen := flows :: load'.seen } := by
    obtain ⟨load', hl', rfl⟩ := Option.map_eq_some_iff.1 hl
    exact ⟨load', hl', rfl⟩
  refine ⟨h.count, h.current_lt, ?_, h.fresh, ?_, fun j hj roots hroots =>
    absurd (h.roots j hj roots hroots).1 hchanging, ?_,
    h.waiting⟩
  · intro l load hl
    obtain ⟨load', hl', rfl⟩ := hbefore hl
    exact h.load_lt l load' hl'
  · intro l load hl
    obtain ⟨load', hl', rfl⟩ := hbefore hl
    exact h.generation l load' hl'
  · intro l load hl hlive hj
    obtain ⟨load', hl', rfl⟩ := hbefore hl
    exact absurd (h.live l load' hl' hlive hj).1 hchanging

theorem Inv.settle (h : s.Inv) {load : Load} {f : Cache → Cache}
    (hf : ∀ cache, (f cache).mutations = cache.mutations ∧ (f cache).generation = cache.generation ∧
      (f cache).roots = cache.roots) : (s.settle load f).Inv := by
  simp only [State.settle]
  split
  · exact h.touch (hf _).1 (hf _).2.1 (hf _).2.2
  · exact h

theorem answer_eq (s : State platform) (i : Nat) (request : PublicRequest platform) :
    ∃ passed, s.answer i request = { s with passed } := by
  rw [State.answer]
  split
  · exact ⟨s.passed, rfl⟩
  · split
    · split
      · exact ⟨s.passed, rfl⟩
      · exact ⟨some request, rfl⟩
    · exact ⟨s.passed, rfl⟩

theorem Inv.answer (h : s.Inv) (i : Nat) (request : PublicRequest platform) : (s.answer i request).Inv := by
  obtain ⟨passed, heq⟩ := answer_eq s i request
  rw [heq]
  exact h.pass passed

/-- What a relevant cache lets through is under no dashboard. -/
theorem Inv.guarded (h : s.Inv) {i : Nat} (hi : s.Relevant i) (hplain : Plain s.flows)
    (hnone : s.passed = none)
    (request : PublicRequest platform) : (s.answer i request).Guarded := by
  have hsame : s.Guarded := by simp [Guarded, hnone]
  obtain ⟨path, url, hurl, hpathname, hdecoded⟩ := exists_decoded request
  rw [State.answer, hurl]
  split
  · exact hsame
  · split
    · next roots url' hroots heq =>
      obtain rfl : url = url' := Except.ok.inj heq
      obtain ⟨hquiet, rfl⟩ := h.roots i hi roots hroots
      split
      · exact hsame
      · next hunder =>
        rw [hpathname] at hunder
        intro request' hrequest
        obtain rfl : request = request' := Option.some.inj hrequest
        exact ⟨hquiet, path, hdecoded, fun node hnode htype value hvalue =>
          not_below hplain (by simpa using hunder) hnode htype hvalue⟩
    · exact hsame

theorem guarded_of_none (h : s.passed = none) : s.Guarded := by
  simp [Guarded, h]

theorem begins_frame (s : State platform) (m : Nat) : (s.begins m).flows = s.flows ∧
    (s.begins m).passed = s.passed :=
  have h := rootCache_frame s
  ⟨h.1, h.2.2.2.2⟩

theorem finishes_frame (s : State platform) (m : Nat) :
    (s.finishes m).flows = s.flows ∧ (s.finishes m).passed = s.passed := by
  rw [State.finishes]
  split <;> exact ⟨rfl, rfl⟩

theorem settle_frame (s : State platform) (load : Load) (f : Cache → Cache) :
    (s.settle load f).flows = s.flows ∧
    (s.settle load f).loads = s.loads ∧ (s.settle load f).passed = s.passed := by
  simp only [State.settle]
  split <;> exact ⟨rfl, rfl, rfl⟩

/-- A callback of a load lets no request through. -/
theorem called {l : Nat} {load : Load} {f : Cache → Cache} {stage : Stage} (h : (s.settle load f).Inv)
    (hl : s.loads l = some load) (hstage : stage ≠ .fetching) (hplain : Plain s.flows)
    (hnone : s.passed = none) :
    ((s.settle load f).setLoad l { load with stage }).Inv ∧
    ((s.settle load f).setLoad l { load with stage }).Guarded ∧
      Plain ((s.settle load f).setLoad l { load with stage }).flows := by
  obtain ⟨hflows, hloads, hpassed⟩ := settle_frame s load f
  refine ⟨h.runs ((congrFun hloads l).trans hl) hstage, guarded_of_none (hpassed.trans hnone), ?_⟩
  rw [setLoad, hflows]
  exact hplain

/-- The cache in use counts every mutation under way. -/
theorem Inv.quiet (h : s.Inv) {i : Nat} (hcounted : ∀ m ∈ s.changing, m.cache = i)
    (hzero : (s.caches i).mutations = 0) :
    s.changing = [] := by
  rw [h.count, List.countP_eq_zero] at hzero
  refine List.eq_nil_iff_forall_not_mem.2 fun m hm => hzero m hm ?_
  simpa using hcounted m hm

theorem Inv.request_current (h : s.Inv) {i r l : Nat} {request : PublicRequest platform} {now : Int}
    {s' : State platform}
    (hi : s.current = some i) (hcounted : ∀ m ∈ s.changing, m.cache = i) (hplain : Plain s.flows)
    (hnone : s.passed = none)
    (hs : s.publicDashboardRequest r l request now = some s') : s'.Inv ∧ s'.Guarded ∧ Plain s'.flows := by
  have hsame : s.Guarded := by simp [Guarded, hnone]
  rw [publicDashboardRequest, rootCache_of_current hi] at hs
  simp only at hs
  split at hs
  · obtain rfl := Option.some.inj hs
    exact ⟨h, hsame, hplain⟩
  next hgo =>
  have hquiet : s.changing = [] := h.quiet hcounted (by simpa using (not_or.1 hgo).1)
  split at hs
  · obtain rfl := Option.some.inj hs
    obtain ⟨passed, heq⟩ := answer_eq s i request
    exact ⟨h.answer i request, h.guarded (.inl hi) hplain hnone request, by rw [heq]; exact hplain⟩
  split at hs
  · cases hs
  split at hs
  · obtain rfl := Option.some.inj hs
    exact ⟨h.waits hi rfl hquiet, by simp [Guarded, hnone], hplain⟩
  split at hs
  · cases hs
  · obtain rfl := Option.some.inj hs
    have hload : (s.setLoad l ⟨i, (s.caches i).generation, .fetching, [s.flows]⟩).Inv :=
      h.begins_load hi hquiet
    have hloading : ((s.setLoad l ⟨i, (s.caches i).generation, .fetching, [s.flows]⟩).setCache i
        { s.caches i with loading := some l }).Inv := hload.touch rfl rfl rfl
    exact ⟨hloading.waits hi rfl hquiet, by simp [Guarded, setCache, setLoad, hnone], hplain⟩

theorem Inv.request (h : s.Inv) {r l : Nat} {request : PublicRequest platform} {now : Int}
    {s' : State platform}
    (hcounted : ∀ m ∈ s.changing, s.current = some m.cache) (hplain : Plain s.flows) (hnone : s.passed = none)
    (hs : s.publicDashboardRequest r l request now = some s') : s'.Inv ∧ s'.Guarded ∧ Plain s'.flows := by
  obtain ⟨hinv, hi⟩ := h.rootCache
  obtain ⟨hflows, hchanging, -, -, hpassed⟩ := rootCache_frame s
  have heq : s.publicDashboardRequest r l request now = s.rootCache.2.publicDashboardRequest r l
      request now := by
    unfold publicDashboardRequest
    rw [rootCache_of_current hi]
  refine hinv.request_current hi ?_ (hflows ▸ hplain) (hpassed.trans hnone) (heq ▸ hs)
  intro m hm
  rw [rootCache_of_current (hcounted m (hchanging ▸ hm))]

end State

/-- A public request comes while every mutation under way counts on the cache in use, a mutation
begins while every request that waits holds on to that cache, and the flows that are deployed are
plain. -/
def Timely (s : State platform) : Label platform → Prop
  | .begins _ => ∀ r waiting, s.requests r = some waiting → s.current = some waiting.cache
  | .request .. => ∀ m ∈ s.changing, s.current = some m.cache
  | .deploys flows => Plain flows
  | _ => True

/-- A step keeps what the caches know, and what it lets through is under no dashboard. -/
theorem step_guarded {s s' : State platform} {label : Label platform} (hgood : Timely s label)
    (hs : step platform s label = some s') (h : s.Inv ∧ s.Guarded ∧ Plain s.flows) :
    s'.Inv ∧ s'.Guarded ∧ Plain s'.flows := by
  have hinv : State.Inv { s with passed := none } := h.1.pass none
  have hplain := h.2.2
  cases label with
  | begins m =>
    simp only [step] at hs
    split at hs
    · cases hs
    · obtain rfl := Option.some.inj hs
      obtain ⟨hflows, hpassed⟩ := State.begins_frame { s with passed := none } m
      exact ⟨hinv.begins hgood, State.guarded_of_none hpassed, by rw [hflows]; exact hplain⟩
  | deploys flows =>
    simp only [step] at hs
    split at hs
    · cases hs
    · next hchanging =>
      obtain rfl := Option.some.inj hs
      exact ⟨hinv.deploys (by simpa using hchanging), by simp [State.Guarded], hgood⟩
  | finishes m =>
    obtain rfl := Option.some.inj hs
    obtain ⟨hflows, hpassed⟩ := State.finishes_frame { s with passed := none } m
    exact ⟨hinv.finishes, State.guarded_of_none hpassed, by rw [hflows]; exact hplain⟩
  | restarts =>
    obtain rfl := Option.some.inj hs
    exact ⟨hinv.forgets (by simp) fun _ _ hr => hr, by simp [State.Guarded], hplain⟩
  | request r l request now => exact hinv.request hgood hplain rfl hs
  | loaded l flows =>
    simp only [step] at hs
    split at hs
    · next load hl =>
      split at hs
      · next hok =>
        obtain rfl := Option.some.inj hs
        have hsettled : (State.settle { s with passed := none } load fun cache =>
            { cache with roots := some (dashboardRootsOf flows) }).Inv := by
          simp only [State.settle]
          split
          · next hgeneration => exact hinv.brings hl ⟨hok.1, hgeneration.symm⟩ hok.2
          · exact hinv
        exact State.called hsettled hl (by simp) hplain rfl
      · cases hs
    · cases hs
  | failed l now =>
    simp only [step] at hs
    split at hs
    · next load hl =>
      split at hs
      · obtain rfl := Option.some.inj hs
        exact State.called (hinv.settle fun cache => ⟨rfl, rfl, rfl⟩) hl (by simp) hplain rfl
      · cases hs
    · cases hs
  | ended l =>
    simp only [step] at hs
    split at hs
    · next load hl =>
      split at hs
      · obtain rfl := Option.some.inj hs
        exact State.called (hinv.settle fun cache => ⟨rfl, rfl, rfl⟩) hl (by simp) hplain rfl
      · cases hs
    · cases hs
  | resumes r =>
    simp only [step] at hs
    split at hs
    · next waiting hr =>
      split at hs
      · obtain rfl := Option.some.inj hs
        have hguarded := hinv.guarded (.inr ⟨r, waiting, hr, rfl⟩) hplain rfl waiting.request
        have hanswer := hinv.answer waiting.cache waiting.request
        obtain ⟨passed, heq⟩ := State.answer_eq { s with passed := none } waiting.cache waiting.request
        rw [heq] at hguarded hanswer ⊢
        refine ⟨hanswer.forgets (fun _ hi => hi) fun r' waiting' hr' => ?_, hguarded, hplain⟩
        simp only [Function.update_apply] at hr'
        split at hr'
        · cases hr'
        · exact hr'
      · cases hs
    · cases hs

/-- In a run whose steps are all timely, no public request is let through to a dashboard or during a
mutation. -/
theorem roots_guarded {flows : List Node} {labels : List (Label platform)} {s : State platform}
    (hplain : Plain flows) (ha : Machine.Along (step platform) Timely (State.init flows) labels)
    (hr : Machine.run (step platform) (State.init flows) labels = some s) : s.Guarded := by
  have hinit : (State.init flows : State platform).Inv ∧ (State.init flows : State platform).Guarded ∧
      Plain flows :=
    ⟨State.Inv.init flows, State.guarded_of_none rfl, hplain⟩
  exact (ha.inv (fun _ _ _ hgood hs h => step_guarded hgood hs h) hr hinit).2.1

/-! ### A webhook's request -/

def cameraEvent : PublicRequest plainPlatform :=
  ⟨⟨"/camera/event?n=1".toList, webhook.headers, true⟩, rfl, _, webhook, garage, tenantForRequest_webhook⟩

theorem cameraEvent_url :
    plainPlatform.newUrl cameraEvent.req.url = .ok ⟨"/camera/event".toList, some "n=1".toList⟩ := by
  decide +kernel

theorem cameraEvent_passes {s : State plainPlatform} {i : Nat} (hm : (s.caches i).mutations = 0)
    {roots : List (Option (List Char))}
    (hroots : (s.caches i).roots = some roots)
    (hunder : State.underRoot roots "/camera/event".toList = false) :
    s.answer i cameraEvent = { s with passed := some cameraEvent } := by
  rw [State.answer, cameraEvent_url, hroots]
  simp only [hm, hunder]
  rfl

def hall : List Node := [⟨"ui-base", some "/hall"⟩]

def visit : List (Label plainPlatform) := [.request 0 0 cameraEvent 0, .loaded 0 hall, .ended 0]

/-- Before the request resumes. -/
def visited : State plainPlatform := (Machine.run (step plainPlatform) (State.init hall) visit).getD
  (State.init hall)

theorem roots_guarded_hall : ∃ s : State plainPlatform,
    Machine.run (step plainPlatform) (State.init hall) (visit ++ [.resumes 0]) = some s ∧
    s.passed = some cameraEvent ∧
      s.Guarded := by
  have hvisit : Machine.run (step plainPlatform) (State.init hall) visit = some visited := rfl
  have hunder : State.underRoot (dashboardRootsOf hall) "/camera/event".toList = false := by decide +kernel
  have hresume : step plainPlatform visited (.resumes 0) =
      some { State.answer { visited with passed := none } 0 cameraEvent with
          requests := Function.update visited.requests 0 none } := rfl
  rw [cameraEvent_passes rfl rfl hunder] at hresume
  have hlast : Machine.run (step plainPlatform) visited [.resumes 0] = some _ :=
    Machine.run_cons.2 ⟨_, hresume, rfl⟩
  have hrun := Machine.run_append.2 ⟨visited, hvisit, hlast⟩
  have hplain : Plain hall := by
    intro node hnode htype base hbase
    obtain rfl := List.mem_singleton.1 hnode
    have hhall : dashboardPath (some "/hall") = some "/hall".toList := by decide +kernel
    obtain rfl := Option.some.inj (hhall.symm.trans hbase)
    simp [inPathSet]
  refine ⟨_, hrun, rfl, roots_guarded hplain ?_ hrun⟩
  refine ⟨?_, trivial, trivial, trivial, trivial⟩
  exact fun m hm => absurd hm List.not_mem_nil

/-- A mutation that the manager forgets when the runtime restarts: the roots are loaded while it is
under way, and the dashboard that it deploys is not among them. -/
def forgotten : List (Label plainPlatform) :=
  [.begins 0, .restarts, .request 0 0 cameraEvent 0, .loaded 0 [], .ended 0,
    .deploys [⟨"ui-base", some "/camera"⟩], .finishes 0]

def stale : State plainPlatform := (Machine.run (step plainPlatform) (State.init []) forgotten).getD
  (State.init [])

theorem root_reached : ∃ s : State plainPlatform,
    Machine.run (step plainPlatform) (State.init []) (forgotten ++ [.request 1 1 cameraEvent 0]) = some s ∧
    ¬ s.Guarded := by
  have hforgotten : Machine.run (step plainPlatform) (State.init []) forgotten = some stale := rfl
  have hrequest : step plainPlatform stale (.request 1 1 cameraEvent 0) =
      some (State.answer { stale with passed := none } 1 cameraEvent) := rfl
  rw [cameraEvent_passes rfl rfl rfl] at hrequest
  refine ⟨_, Machine.run_append.2 ⟨stale, hforgotten, Machine.run_cons.2 ⟨_, hrequest, rfl⟩⟩,
    fun hguarded => ?_⟩
  obtain ⟨-, path, ⟨url, hurl, hdecode⟩, hnot⟩ := hguarded cameraEvent rfl
  obtain rfl := Except.ok.inj (cameraEvent_url.symm.trans hurl)
  have hpath : decodeURIComponent "/camera/event".toList = some "/camera/event".toList := by decide +kernel
  obtain rfl := Option.some.inj (hpath.symm.trans hdecode)
  refine hnot ⟨"ui-base", some "/camera"⟩ (List.mem_singleton_self _) rfl "/camera" rfl (.inr ?_)
  decide +kernel

end DashboardRoots

end Manager
