import BetterFrame.Deploy.Manager
import BetterFrame.Lib.Json
import BetterFrame.Lib.Url

/-!
# Ingress of the Node-RED manager

`tenantForRequest`, `publicRuntimePath`, `displayScope` and `runtimeHeaders` of `manager.mjs`. A
public request is one whose path begins with `/in/public/`; `ingress_confined` says where it can
lead and what it can carry, and which display scopes the other requests carry on.
-/

namespace Manager

open Text Url

/-- What the manager is given: its token, HMAC-SHA256, the buffer's base64url and UTF-8, how JSON
numbers are read and values written, and the parser for URLs with a scheme or a host of their own.
-/
structure Platform where
  MANAGER_TOKEN : String
  token_length : 32 ≤ utf16Length MANAGER_TOKEN
  hmac : String → String → List UInt8
  base64url : String → List UInt8
  utf8 : List UInt8 → String
  finite : Json.Num → Option Rat
  stringify : Json → String
  absolute : List Char → Option Location

/-- The errors of the path and cookie functions. -/
inductive Thrown where
  | invalidUrl
  | malformedUri
  | syntaxError
  | typeError
  | error (message : String)
deriving DecidableEq

/-! ### Headers -/

/-- A header, which comes once or several times. -/
inductive HeaderValue where
  | text (s : String)
  | list (ss : List String)
deriving DecidableEq

/-- The headers of a message. Their names are in lower case. -/
structure Headers where
  get : String → Option HeaderValue
  lower_name : ∀ name, (get name).isSome → lower name.toList = name.toList

namespace Headers

def set (headers : Headers) (name : String) (value : HeaderValue) (h : lower name.toList = name.toList) :
    Headers where
  get := Function.update headers.get name (some value)
  lower_name n hn := by
    by_cases he : n = name
    · exact he ▸ h
    · exact headers.lower_name n (by simpa [Function.update_of_ne he] using hn)

def delete (headers : Headers) (name : String) : Headers where
  get := Function.update headers.get name none
  lower_name n hn := by
    by_cases he : n = name
    · simp [he] at hn
    · exact headers.lower_name n (by simpa [Function.update_of_ne he] using hn)

/-- Names of headers are the same in either case. -/
def Carries (headers : Headers) (name : String) : Prop :=
  ∃ n, lower n.toList = lower name.toList ∧ (headers.get n).isSome

theorem get_set (headers : Headers) (name : String) (value : HeaderValue)
    (h : lower name.toList = name.toList) (n : String) :
    (headers.set name value h).get n = if n = name then some value else headers.get n :=
  Function.update_apply ..

theorem get_delete (headers : Headers) (name n : String) :
    (headers.delete name).get n = if n = name then none else headers.get n := Function.update_apply ..

theorem not_carries {headers : Headers} {name : String} (hname : lower name.toList = name.toList)
    (h : headers.get name = none) : ¬ headers.Carries name := by
  rintro ⟨n, hn, hsome⟩
  have heq : n.toList = name.toList := (headers.lower_name n hsome).symm.trans (hn.trans hname)
  rw [String.toList_injective heq, h] at hsome
  simp at hsome

end Headers

/-- Truth of a header's value: an empty one is false. -/
def truthyHeader : Option HeaderValue → Bool
  | none | some (.text "") => false
  | some _ => true

/-- `String(value || "")` -/
def headerString : Option HeaderValue → String
  | none => ""
  | some (.text s) => s
  | some (.list ss) => ",".intercalate ss

/-- `replace(/^Bearer\s+/i, "")` -/
def withoutBearer (s : String) : String :=
  let rest := s.toList.drop 6
  if lower (s.toList.take 6) = "bearer".toList ∧ rest.head?.any isSpace then
    String.ofList (rest.dropWhile isSpace) else s

/-- A request, as far as its address and the token are read. -/
structure Request where
  url : List Char
  headers : Headers
  bfPublic : Bool

/-! ### Paths -/

/-- What `/^base(?:\/|$)/i` matches. -/
def under (base : String) (path : List Char) : Bool :=
  base.toList.isPrefixOf (lower path) && (path.drop base.toList.length).head?.all (· = '/')

/-- The slug and the path that `/^\/in\/public\/([^/]+)(\/.*)?$/` finds. -/
def publicMatch (pathname : List Char) : Option (List Char × List Char) :=
  if "/in/public/".toList.isPrefixOf pathname then
    let rest := pathname.drop 11
    let slug := rest.takeWhile (· ≠ '/')
    let path := rest.dropWhile (· ≠ '/')
    if slug = [] ∨ path.any isLineTerminator then none else some (slug, path)
  else none

/-- The path belongs to the dashboards, the manager or the internal interface. -/
def reservedPath (path : List Char) : Bool :=
  ["/nrdp", "/_betterframe", "/dash", "/dashboard", "/ui"].any (under · path) || under "/api/internal" path

namespace Platform

variable (platform : Platform)

/-- The constructor `URL`, which throws. -/
def newUrl (input : List Char) : Except Thrown Location :=
  match parse platform.absolute input with
  | none => .error .invalidUrl
  | some url => .ok url

/-- The manager's own token. -/
def authorized (headers : Headers) : Bool :=
  withoutBearer (headerString (headers.get "authorization")) = platform.MANAGER_TOKEN

/-- The decoded path of a public request, unless reserved. -/
def publicRuntimePath (path : List Char) : Except Thrown (Option (List Char)) :=
  match decodeURIComponent path with
  | none => .ok none
  | some decoded =>
    if decoded.any (fun c => c = '\\' || c = '%' || c.toNat ≤ 0x1f) || "//".toList.isPrefixOf decoded then
      .ok none
    else do
      let url ← platform.newUrl decoded
      let canonical := collapse url.pathname
      return if reservedPath canonical then none else some canonical

/-- The slug is decoded for each tenant that it is compared with. -/
def tenantBySlug (tenants : List (String × Tenant)) (slug : List Char) : Except Thrown (Option Tenant) :=
  if tenants = [] then .ok none
  else
    match decodeURIComponent slug with
    | none => .error .malformedUri
    | some slug => .ok ((tenants.map (·.2)).find? (·.slug.toList = slug))

/-- The tenant a request is for, and the request as its runtime gets it. -/
def tenantForRequest (tenants : List (String × Tenant)) (req : Request) :
    Except Thrown (Request × Option Tenant) := do
  let url ← platform.newUrl (if req.url = [] then ['/'] else req.url)
  match publicMatch url.pathname with
  | some (slug, rest) =>
    let req := { req with bfPublic := true }
    let tenant ← tenantBySlug tenants slug
    match ← platform.publicRuntimePath (if rest = [] then ['/'] else rest) with
    | none | some [] => return (req, none)
    | some path =>
      match tenant with
      | none => return (req, none)
      | some tenant => return ({ req with url := path ++ url.search }, some tenant)
  | none =>
    let req := { req with bfPublic := false }
    let id := headerString (req.headers.get "x-betterframe-tenant")
    if id = "" then return (req, none)
    return (req, ((tenants.find? (·.1 = id)).map (·.2)).or ((tenants.map (·.2)).find? (·.slug = id)))

/-! ### Display scopes -/

/-- `/^[\w.-]{1,128}$/` of a string -/
def isPageId : Json → Bool
  | .str s =>
    s.toList.all (fun c => isAlpha c || isDigit c || c = '_' || c = '.' || c = '-') && 1 ≤ s.length &&
      s.length ≤ 128
  | _ => false

/-- A nonempty list of page ids. -/
def validPages : Option Json → Bool
  | some (.arr pages) => pages ≠ [] && pages.all isPageId
  | _ => false

/-- The clock is read for each of the two bounds. -/
def validExpires (now now' : Int) : Option Json → Bool
  | some (.num n) =>
    match platform.finite n with
    | none => false
    | some expires => !(expires ≤ now) && !(expires > now' + 60000)
  | _ => false

/-- The scope a display's signed header grants: `now` and `now'` are the two readings of the clock.
-/
def displayScope (now now' : Int) (req : Request) (tenant : Tenant) : Except Thrown (Option Json) :=
  let token := req.headers.get "x-betterframe-display-scope"
  if !truthyHeader token then .ok none
  else
    match token with
    | some (.text token) =>
      if req.bfPublic || !truthyHeader (req.headers.get "x-betterframe-tenant") ||
        12000 < utf16Length token then
        .error (.error "invalid display scope")
      else
        let parts := splitOn '.' token.toList
        let payload := String.ofList (parts.getD 0 [])
        let expected := platform.hmac platform.MANAGER_TOKEN ("display-scope-v1:" ++ payload)
        let supplied := platform.base64url (String.ofList (parts.getD 1 []))
        if parts.getD 2 [] ≠ [] ∨ supplied.length ≠ expected.length ∨ supplied ≠ expected then
          .error (.error "invalid display signature")
        else
          match Json.parse (platform.utf8 (platform.base64url payload)) with
          | none => .error .syntaxError
          | some .null => .error .typeError
          | some scope =>
            if (scope.get? "tenant").bind Json.asStr? = some tenant.tenant_id ∧
                platform.validExpires now now' (scope.get? "expires") ∧ validPages (scope.get? "pages") then
              .ok (some scope)
            else .error (.error "invalid display scope claims")
    | _ => .error (.error "invalid display scope")

/-- The token of a tenant's dashboards, derived from its administrator's. -/
def dashboardToken (tenant : Tenant) : String :=
  String.ofList (hexOfBytes (platform.hmac tenant.adminToken "dashboard-access-v1"))

/-- The headers before the manager adds any. -/
def stripped (given : Headers) (tenant : Tenant) : Headers :=
  let headers := given.set "host" (.text ("127.0.0.1:" ++ toString tenant.port)) (by decide)
  let headers := headers.delete "x-betterframe-tenant"
  let headers := headers.delete "cookie"
  let headers := headers.delete "x-betterframe-runtime-token"
  let headers := headers.delete "x-betterframe-dashboard-token"
  headers.delete "x-betterframe-display-scope"

/-- The headers a runtime gets: the caller's own claims stripped, the manager's set. -/
def runtimeHeaders (now now' : Int) (req : Request) (tenant : Tenant) : Except Thrown Headers := do
  let headers := stripped req.headers tenant
  let scope ← if req.bfPublic then pure none else platform.displayScope now now' req tenant
  let headers :=
    match scope with
    | none => headers
    | some scope => headers.set "x-betterframe-display-scope" (.text (platform.stringify scope)) (by decide)
  let fromIngress := !req.bfPublic && truthyHeader (req.headers.get "x-betterframe-tenant")
  let headers :=
    if fromIngress then headers.set "x-betterframe-dashboard-token"
      (.text (platform.dashboardToken tenant)) (by decide)
    else headers
  let url ← platform.newUrl (if req.url = [] then ['/'] else req.url)
  match decodeURIComponent url.pathname with
  | none => throw .malformedUri
  | some path =>
    let headers :=
      if under "/nrdp" path || under "/api/internal" path then
        headers.set "x-betterframe-runtime-token" (.text tenant.adminToken) (by decide)
      else headers
    return if platform.authorized req.headers || fromIngress then headers.delete "authorization" else headers

end Platform

/-! ### Reserved paths -/

/-- What comes first in the path, in lower case. -/
def firstSegments (path : List Char) : List (List Char) :=
  (segments (if path.head?.any isSlash then path.tail else path)).map lower

/-- The reserved paths, segment by segment. -/
def reserved : List (List (List Char)) :=
  ["nrdp", "_betterframe", "dash", "dashboard", "ui"].map (fun name => [name.toList]) ++
    [["api".toList, "internal".toList]]

/-- The path's first segments are those of the editor, of a dashboard or of the event dispatcher. -/
def Reserved (path : List Char) : Prop := ∃ names ∈ reserved, names <+: firstSegments path

/-- No character of the segments is of the kind `p`. -/
def noneOf (p : Char → Bool) (ss : List (List Char)) : Bool := ss.all fun s => s.all fun c => !p c

theorem noneOf_iff {p : Char → Bool} {ss : List (List Char)} : noneOf p ss = true ↔
    ∀ s ∈ ss, ∀ c ∈ s, p c = false := by
  simp [noneOf]

theorem firstSegments_join {ss : List (List Char)} (h : Settled ss) :
    firstSegments (join ss) = ss.map lower := by
  obtain ⟨cs, hjoin, hseg⟩ := h.exists_join
  rw [firstSegments, hjoin]
  simp [hseg]

/-- The test for a path below `base` reads its segments. -/
theorem under_join {base : String} {names ss : List (List Char)} (hbase : base.toList = join names)
    (hne : names ≠ []) (hnames : ∀ s ∈ names, ∀ c ∈ s, isSlash c = false) (h : Settled ss) :
    under base (join ss) = true ↔ names <+: ss.map lower := by
  rw [under, hbase, Bool.and_eq_true, List.isPrefixOf_iff_prefix]
  constructor
  · rintro ⟨⟨rest, hrest⟩, hhead⟩
    have hlower : ∀ s ∈ ss.map lower, ∀ c ∈ s, isSlash c = false := by
      intro t ht c hc
      obtain ⟨s, hs, rfl⟩ := List.mem_map.1 ht
      obtain ⟨d, hd, rfl⟩ := List.mem_map.1 hc
      rw [isSlash_toLower]
      exact h.plain s hs d hd
    have hdrop : rest = lower ((join ss).drop (join names).length) := by
      rw [lower, List.map_drop, ← lower, ← hrest, List.drop_left]
    have hslash : ∀ c ∈ rest.head?, isSlash c := by
      intro c hc
      rw [hdrop, lower, List.head?_map] at hc
      obtain ⟨d, hd, rfl⟩ := Option.map_eq_some_iff.1 hc
      rw [isSlash_toLower]
      rw [hd] at hhead
      simp only [Option.all_some, decide_eq_true_eq] at hhead
      rw [hhead, isSlash_slash]
    have hseg := segments_join (by simpa using h.ne_nil) hlower
    rw [← lower_join, ← hrest, segments_join_append hne hnames hslash] at hseg
    exact ⟨_, hseg⟩
  · rintro ⟨more, hmore⟩
    have hnames' : (ss.take names.length).map lower = names := by
      rw [List.map_take, ← hmore, List.take_left]
    have hsplit : join ss = join (ss.take names.length) ++ join (ss.drop names.length) := by
      rw [← join_append, List.take_append_drop]
    have hlen : (join names).length = (join (ss.take names.length)).length :=
      calc (join names).length = (lower (join (ss.take names.length))).length := by rw [lower_join, hnames']
        _ = (join (ss.take names.length)).length := List.length_map ..
    constructor
    · rw [lower_join, ← hmore, join_append]
      exact List.prefix_append ..
    · rw [hlen, hsplit, List.drop_left]
      cases hd : (join (ss.drop names.length)).head? with
      | none => rfl
      | some c => simpa using join_head _ c hd

theorem reservedPath_join {ss : List (List Char)} (h : Settled ss) : reservedPath (join ss) = true ↔
    Reserved (join ss) := by
  have hone : ∀ name ∈ ["nrdp", "_betterframe", "dash", "dashboard", "ui"],
      (under ("/" ++ name) (join ss) = true ↔ [name.toList] <+: ss.map lower) := by
    intro name hname
    refine under_join (by simp) (by simp) ?_ h
    have hplain : ∀ name ∈ ["nrdp", "_betterframe", "dash", "dashboard", "ui"],
        noneOf isSlash [name.toList] := by decide
    exact noneOf_iff.1 (hplain name hname)
  have htwo : under "/api/internal" (join ss) = true ↔ ["api".toList, "internal".toList] <+: ss.map lower :=
    under_join (by decide) (by simp) (noneOf_iff.1 (by decide)) h
  rw [Reserved, firstSegments_join h, reservedPath, Bool.or_eq_true, htwo]
  have hany : (["/nrdp", "/_betterframe", "/dash", "/dashboard", "/ui"].any (under · (join ss))) =
      ["nrdp", "_betterframe", "dash", "dashboard", "ui"].any fun name => under ("/" ++ name) (join ss) := rfl
  rw [hany, List.any_eq_true]
  constructor
  · rintro (⟨name, hname, hunder⟩ | h)
    · exact ⟨_, List.mem_append_left _ (List.mem_map_of_mem hname), (hone name hname).1 hunder⟩
    · exact ⟨_, List.mem_append_right _ (List.mem_singleton_self _), h⟩
  · rintro ⟨names, hnames, h⟩
    rcases List.mem_append.1 hnames with hnames | hnames
    · obtain ⟨name, hname, rfl⟩ := List.mem_map.1 hnames
      exact .inl ⟨name, hname, (hone name hname).2 h⟩
    · exact .inr (List.mem_singleton.1 hnames ▸ h)

theorem inPathSet_toLower {c : Char} (h : inPathSet c.toLower = false) : inPathSet c = false := by
  rcases toLower_cases c with hc | ⟨hlo, hhi, -⟩
  · rwa [hc] at h
  · have hne : ∀ d : Char, d.toNat < 65 ∨ 90 < d.toNat → c ≠ d := by
      rintro d hd rfl
      omega
    have hrange : ¬ c.toNat ≤ 32 ∧ ¬ 126 < c.toNat := by omega
    simp [inPathSet, hrange, hne '"' (by decide), hne '#' (by decide), hne '<' (by decide),
      hne '>' (by decide),
      hne '?' (by decide), hne '^' (by decide), hne '`' (by decide), hne '\x7b' (by decide),
        hne '\x7d' (by decide)]

theorem prefix_encode {names ss : List (List Char)} (h : ∀ s ∈ names, ∀ c ∈ s, inPathSet c = false)
    (hpre : names <+: ss.map lower) : names <+: (ss.map (encode inPathSet)).map lower := by
  induction names generalizing ss with
  | nil => exact List.nil_prefix
  | cons name names ih =>
    cases ss with
    | nil => simp at hpre
    | cons s ss =>
      rw [List.map_cons, List.cons_prefix_cons] at hpre
      obtain ⟨rfl, hpre⟩ := hpre
      have hs : encode inPathSet s = s :=
        encode_eq_self fun c hc => inPathSet_toLower (h _ (List.mem_cons_self ..) _ (List.mem_map_of_mem hc))
      simp only [List.map_cons, hs]
      exact List.cons_prefix_cons.2 ⟨rfl, ih (fun t ht => h t (by simp [ht])) hpre⟩

/-- What the check of the encoded path says holds however often the path is decoded and normalised. -/
theorem not_reserved_normalise {ss : List (List Char)} (h : Settled ss) (hp : ∀ s ∈ ss, '%' ∉ s)
    (hreserved : reservedPath (join (ss.map (encode inPathSet))) = false) {ops : List Normalise}
    {path : List Char}
    (hn : normalise (join (ss.map (encode inPathSet))) ops = some path) : ¬ Reserved path := by
  have hs := h.encode hp
  have hencoded : ¬ Reserved (join (ss.map (encode inPathSet))) := by
    rw [← reservedPath_join hs, hreserved]
    simp
  rcases h.normalise hp (.inl rfl) hn with rfl | rfl
  · exact hencoded
  · rintro ⟨names, hnames, hpre⟩
    rw [firstSegments_join h] at hpre
    refine hencoded ⟨names, hnames, ?_⟩
    rw [firstSegments_join hs]
    have hplain : ∀ names ∈ reserved, noneOf inPathSet names := by decide
    exact prefix_encode (noneOf_iff.1 (hplain names hnames)) hpre

namespace Platform

variable {platform : Platform}

/-- A path that is let through is the encoding of one without dot segments, runs of slashes or
percent signs. -/
theorem publicRuntimePath_some {path canonical : List Char} (hpath : ∃ cs, path = '/' :: cs)
    (h : platform.publicRuntimePath path = .ok (some canonical)) :
    ∃ ss, Settled ss ∧ (∀ s ∈ ss, '%' ∉ s) ∧ canonical = join (ss.map (encode inPathSet)) ∧
    reservedPath canonical = false := by
  obtain ⟨cs, rfl⟩ := hpath
  rw [publicRuntimePath, decode_cons (by decide)] at h
  cases hdecode : decodeURIComponent cs with
  | none => simp [hdecode] at h
  | some decoded =>
    rw [hdecode, Option.map_some] at h
    simp only at h
    split at h
    · simp at h
    · next hok =>
      rw [Bool.or_eq_true, not_or, List.any_eq_true] at hok
      obtain ⟨hchars, hdouble⟩ := hok
      have hchar : ∀ c ∈ decoded, (c ≠ '\\' ∧ c ≠ '%') ∧ 0x1f < c.toNat := by
        intro c hc
        have hc' := not_exists.1 hchars c
        simpa [hc] using hc'
      have hslash : ∀ c ∈ decoded.head?, isSlash c = false := by
        intro c hc
        cases decoded with
        | nil => simp at hc
        | cons d decoded =>
          obtain rfl : d = c := by simpa using hc
          have hback := (hchar d (by simp)).1.1
          have hfront : d ≠ '/' := by
            rintro rfl
            simp at hdouble
          simp [isSlash, hback, hfront]
      have htab : ∀ c ∈ decoded, isTabOrNewline c = false := by
        intro c hc
        have hcontrol := (hchar c hc).2
        simp [isTabOrNewline]
        omega
      obtain ⟨cs', hpre, hparse⟩ := @parse_rooted platform.absolute _ hslash htab
      obtain ⟨ss, hss, hne, hsegs⟩ := relative_pathname fun hc => (hchar _ (hpre.subset hc)).1.2 rfl
      have hplain : ∀ s ∈ ss, ∀ c ∈ s, isSlash c = false := fun s hs c hc => ((hsegs s hs).1 c hc).2
      have hpercent : ∀ s ∈ ss, '%' ∉ s :=
        fun s hs hc => (hchar _ (hpre.subset ((hsegs s hs).1 _ hc).1)).1.2 rfl
      have hcollapse : collapse (relative cs').pathname = join ((squeeze ss).map (encode inPathSet)) := by
        rw [hss, collapse_join, squeeze_map fun _ => encode_eq_nil]
        intro t ht
        obtain ⟨s, hs, rfl⟩ := List.mem_map.1 ht
        exact isSlash_encode (hplain s hs)
      rw [newUrl, hparse] at h
      have hsome : (if reservedPath (collapse (relative cs').pathname) then none
        else some (collapse (relative cs').pathname)) =
          some canonical := Except.ok.inj h
      split at hsome
      · cases hsome
      · next hreserved =>
        obtain rfl : collapse (relative cs').pathname = canonical := Option.some.inj hsome
        refine ⟨squeeze ss, ⟨squeeze_ne_nil hne, ?_, ?_, tight_squeeze ss⟩, ?_,
          hcollapse, by simpa using hreserved⟩
        · exact fun s hs => hplain s (squeeze_subset ss hs)
        · exact fun s hs => (hsegs s (squeeze_subset ss hs)).2
        · exact fun s hs => hpercent s (squeeze_subset ss hs)

theorem search_head (url : Location) : ∀ c ∈ url.search.head?, c = '?' := by
  rcases url with ⟨pathname, _ | _ | ⟨c, query⟩⟩ <;> simp [Location.search]

theorem publicMatch_some {pathname slug path : List Char} (h : publicMatch pathname = some (slug, path))
    (hne : path ≠ []) :
    ∃ cs, path = '/' :: cs := by
  rw [publicMatch] at h
  split at h
  · simp only at h
    split at h
    · cases h
    · obtain ⟨-, rfl⟩ := Prod.mk.inj (Option.some.inj h)
      obtain ⟨c, cs, hcs⟩ := List.exists_cons_of_ne_nil hne
      have hhead := List.head?_dropWhile_not (fun c => decide (c ≠ '/')) (pathname.drop 11)
      rw [hcs] at hhead
      obtain rfl : c = '/' := by simpa using hhead
      exact ⟨cs, hcs⟩
  · cases h

/-- What a request that is marked public and has a tenant asks the tenant's runtime for. -/
theorem tenantForRequest_public {tenants : List (String × Tenant)} {req req' : Request} {tenant : Tenant}
    (h : platform.tenantForRequest tenants req = .ok (req', some tenant)) (hpublic : req'.bfPublic = true) :
    ∃ ss query, Settled ss ∧ (∀ s ∈ ss, '%' ∉ s) ∧ reservedPath (join (ss.map (encode inPathSet))) = false ∧
      (∀ c ∈ query.head?, c = '?') ∧
      req' = ⟨join (ss.map (encode inPathSet)) ++ query, req.headers, true⟩ := by
  simp only [tenantForRequest, bind, Except.bind] at h
  split at h
  · cases h
  · next url hurl =>
    split at h
    · next slug rest hmatch =>
      split at h
      · cases h
      · next found hfound =>
        split at h
        · cases h
        · next path hpath =>
          split at h
          · cases h
          · cases h
          · next path hempty =>
            split at h
            · cases h
            · next tenant' =>
              obtain ⟨rfl, -⟩ := Prod.mk.inj (Except.ok.inj h)
              have hroot : ∃ cs, (if rest = [] then ['/'] else rest) = '/' :: cs := by
                split
                · exact ⟨[], rfl⟩
                · next hne => exact publicMatch_some hmatch hne
              obtain ⟨ss, hs, hp, rfl, hreserved⟩ := publicRuntimePath_some hroot hpath
              exact ⟨ss, url.search, hs, hp, hreserved, search_head url, rfl⟩
    · split at h
      · cases h
      · obtain ⟨rfl, -⟩ := Prod.mk.inj (Except.ok.inj h)
        cases hpublic

theorem not_authorized_of_none {headers : Headers} (h : headers.get "authorization" = none) :
    platform.authorized headers = false := by
  have hlen := platform.token_length
  have hne : platform.MANAGER_TOKEN ≠ "" := by
    intro he
    rw [he] at hlen
    exact absurd hlen (by decide)
  have hempty : withoutBearer (headerString none) = "" := by decide
  rw [authorized, h, hempty]
  exact decide_eq_false (Ne.symm hne)

theorem stripped_get (given : Headers) (tenant : Tenant) :
    (∀ name ∈ ["cookie", "x-betterframe-tenant", "x-betterframe-runtime-token",
    "x-betterframe-dashboard-token",
      "x-betterframe-display-scope"], (stripped given tenant).get name = none) ∧
    (stripped given tenant).get "authorization" = given.get "authorization" := by
  simp [stripped, Headers.get_delete, Headers.get_set]

/-- The headers of a public request carry nothing that opens an editor, a dashboard or the event
dispatcher. -/
theorem runtimeHeaders_public {ss : List (List Char)} (hs : Settled ss) (hp : ∀ s ∈ ss, '%' ∉ s)
    (hreserved : reservedPath (join (ss.map (encode inPathSet))) = false) {query : List Char}
    (hquery : ∀ c ∈ query.head?, c = '?') (given : Headers) (now now' : Int) (tenant : Tenant) :
    ∃ headers, platform.runtimeHeaders now now' ⟨join (ss.map (encode inPathSet)) ++ query, given,
    true⟩ tenant = .ok headers ∧
      (∀ name ∈ ["cookie", "x-betterframe-tenant", "x-betterframe-runtime-token",
      "x-betterframe-dashboard-token",
        "x-betterframe-display-scope"], ¬ headers.Carries name) ∧ platform.authorized headers = false := by
  obtain ⟨url, hparse, hpathname⟩ := @parse_encode platform.absolute ss hs hp query hquery
  have hurl : platform.newUrl (join (ss.map (encode inPathSet)) ++ query) = .ok url := by rw [newUrl, hparse]
  have hdecode : decodeURIComponent url.pathname = some (join ss) := by
    rw [hpathname, ← encode_join (by decide)]
    exact decode_encode (Settled.join_percent hp)
  have hne : join (ss.map (encode inPathSet)) ++ query ≠ [] := by
    obtain ⟨cs, hjoin, -⟩ := (hs.encode hp).exists_join
    simp [hjoin]
  have hplain : reservedPath (join ss) = false := by
    rw [Bool.eq_false_iff, ne_eq, reservedPath_join hs]
    exact @not_reserved_normalise ss hs hp hreserved [.decode] _ (by
      show (decodeURIComponent _).bind _ = _
      rw [← hpathname, hdecode]
      rfl)
  have hunder : (under "/nrdp" (join ss) || under "/api/internal" (join ss)) = false := by
    rw [reservedPath, Bool.or_eq_false_iff, List.any_eq_false] at hplain
    rw [Bool.or_eq_false_iff]
    exact ⟨by simpa using hplain.1 "/nrdp" (by simp), hplain.2⟩
  obtain ⟨hnone, hauthorization⟩ := stripped_get given tenant
  have hlower : ∀ name ∈ ["cookie", "x-betterframe-tenant", "x-betterframe-runtime-token",
    "x-betterframe-dashboard-token",
      "x-betterframe-display-scope"], lower name.toList = name.toList := by decide
  simp only [runtimeHeaders, bind, Except.bind, pure, Except.pure, if_true, if_neg hne, hurl,
    hdecode, hunder, Bool.not_true, Bool.false_and, Bool.false_eq_true, if_false, Bool.or_false]
  refine ⟨_, rfl, ?_, ?_⟩
  · intro name hname
    refine Headers.not_carries (hlower name hname) ?_
    split
    · rw [Headers.get_delete, hnone name hname, ite_self]
    · exact hnone name hname
  · split
    · exact not_authorized_of_none (by rw [Headers.get_delete, if_pos rfl])
    · next hnot =>
      rw [authorized, hauthorization, ← authorized]
      simpa using hnot

/-! ### Other requests -/

/-- A token signed with the manager's own, for this tenant and good for no longer than a minute. -/
structure Scoped (platform : Platform) (now now' : Int) (tenant : Tenant) (token : String) (scope : Json) :
    Prop where
  signed : platform.base64url (String.ofList ((splitOn '.' token.toList).getD 1 [])) =
    platform.hmac platform.MANAGER_TOKEN ("display-scope-v1:" ++
      String.ofList ((splitOn '.' token.toList).getD 0 []))
  payload : Json.parse (platform.utf8
    (platform.base64url (String.ofList ((splitOn '.' token.toList).getD 0 [])))) = some scope
  tenant_id : scope.get? "tenant" = some (.str tenant.tenant_id)
  expires : ∃ n expires, scope.get? "expires" = some (.num n) ∧ platform.finite n = some expires ∧
    now < expires ∧ expires ≤ now' + 60000

theorem validExpires_iff {now now' : Int} {value : Option Json} :
    platform.validExpires now now' value = true ↔
    ∃ n expires, value = some (.num n) ∧ platform.finite n = some expires ∧ now < expires ∧
    expires ≤ now' + 60000 := by
  constructor
  · intro h
    rw [validExpires.eq_def] at h
    split at h
    · next n =>
      split at h
      · cases h
      · next expires hexpires =>
        simp only [Bool.and_eq_true, Bool.not_eq_true', decide_eq_false_iff_not, Rat.not_le,
          gt_iff_lt, Rat.not_lt] at h
        exact ⟨n, expires, rfl, hexpires, h⟩
    · cases h
  · rintro ⟨n, expires, rfl, hexpires, hlo, hhi⟩
    simp [validExpires, hexpires, Rat.not_le.2 hlo, Rat.not_lt.2 hhi]

theorem displayScope_ok {now now' : Int} {req : Request} {tenant : Tenant} {scope : Option Json}
    (h : platform.displayScope now now' req tenant = .ok scope) :
    (scope = none ∧ truthyHeader (req.headers.get "x-betterframe-display-scope") = false) ∨
      ∃ token value, req.headers.get "x-betterframe-display-scope" = some (.text token) ∧ scope = some value ∧
        Scoped platform now now' tenant token value := by
  rw [displayScope] at h
  simp only at h
  split at h
  · next htruthy =>
    obtain rfl := Except.ok.inj h
    exact .inl ⟨rfl, by simpa using htruthy⟩
  · split at h
    · next token htoken =>
      right
      split at h
      · cases h
      split at h
      · cases h
      · next hsigned =>
        split at h
        · cases h
        · cases h
        · next value hnull hparse =>
          split at h
          · next hvalid =>
            obtain rfl := Except.ok.inj h
            refine ⟨token, value, htoken, rfl, ?_, hparse, ?_, validExpires_iff.1 hvalid.2.1⟩
            · simp only [not_or, not_not] at hsigned
              exact hsigned.2.2
            · obtain ⟨tenant_id, hget, hstr⟩ := Option.bind_eq_some_iff.1 hvalid.1
              cases tenant_id <;> cases hstr
              exact hget
          · cases h
    · cases h

/-- Of a request that is not public, a display scope is sent on exactly when it carries a token. -/
theorem runtimeHeaders_scope {now now' : Int} {req : Request} {tenant : Tenant} {headers : Headers}
    (hpublic : req.bfPublic = false) (h : platform.runtimeHeaders now now' req tenant = .ok headers) :
    ∃ scope, platform.displayScope now now' req tenant = .ok scope ∧
      headers.get "x-betterframe-display-scope" = scope.map fun scope => .text
      (platform.stringify scope) := by
  have hnone : (stripped req.headers tenant).get "x-betterframe-display-scope" = none :=
    (stripped_get req.headers tenant).1 _ (by simp)
  simp only [runtimeHeaders, bind, Except.bind, pure, Except.pure, hpublic, Bool.false_eq_true, if_false] at h
  split at h
  · cases h
  · next scope hscope =>
    refine ⟨scope, hscope, ?_⟩
    have hadded : (match scope with
        | none => stripped req.headers tenant
        | some scope =>
          (stripped req.headers tenant).set "x-betterframe-display-scope"
            (.text (platform.stringify scope))
          (by decide)).get
          "x-betterframe-display-scope" = scope.map fun scope => .text (platform.stringify scope) := by
      cases scope with
      | none => exact hnone
      | some scope => simp [Headers.get_set]
    split at h
    · cases h
    split at h
    · cases h
    · obtain rfl := Except.ok.inj h
      rw [← hadded]
      split_ifs <;> simp [Headers.get_delete, Headers.get_set]

end Platform

/-- A public request reaches no reserved path and carries no credential, and of the other requests
those that bring a display scope bring a valid one. -/
theorem ingress_confined (platform : Platform) (tenants : List (String × Tenant)) (now now' : Int) :
    (∀ req req' tenant, platform.tenantForRequest tenants req = .ok (req', some tenant) →
      req'.bfPublic = true → (∃ url, platform.newUrl req'.url = .ok url ∧
        ∀ ops path, normalise url.pathname ops = some path → ¬ Reserved path) ∧
      ∃ headers, platform.runtimeHeaders now now' req' tenant = .ok headers ∧
        (∀ name ∈ ["cookie", "x-betterframe-tenant", "x-betterframe-runtime-token",
        "x-betterframe-dashboard-token",
          "x-betterframe-display-scope"], ¬ headers.Carries name) ∧ platform.authorized headers = false) ∧
    ∀ req tenant, req.bfPublic = false →
      (∀ headers, platform.runtimeHeaders now now' req tenant = .ok headers →
        headers.Carries "x-betterframe-display-scope" →
          ∃ token scope, req.headers.get "x-betterframe-display-scope" = some (.text token) ∧
            platform.Scoped now now' tenant token scope) ∧
      ((¬ ∃ token scope, req.headers.get "x-betterframe-display-scope" = some (.text token) ∧
          platform.Scoped now now' tenant token scope) →
        truthyHeader (req.headers.get "x-betterframe-display-scope") = true →
          ∃ thrown, platform.runtimeHeaders now now' req tenant = .error thrown) := by
  constructor
  · intro req req' tenant h hpublic
    obtain ⟨ss, query, hs, hp, hreserved, hquery, rfl⟩ := Platform.tenantForRequest_public h hpublic
    refine ⟨?_, Platform.runtimeHeaders_public hs hp hreserved hquery req.headers now now' tenant⟩
    obtain ⟨url, hparse, hpathname⟩ := @parse_encode platform.absolute ss hs hp query hquery
    refine ⟨url, by rw [Platform.newUrl, hparse], fun ops path hn => ?_⟩
    rw [hpathname] at hn
    exact not_reserved_normalise hs hp hreserved hn
  · intro req tenant hpublic
    constructor
    · rintro headers hheaders ⟨name, hname, hsome⟩
      obtain ⟨scope, hscope, hget⟩ := Platform.runtimeHeaders_scope hpublic hheaders
      rcases Platform.displayScope_ok hscope with ⟨rfl, -⟩ | ⟨token, value, htoken, rfl, hscoped⟩
      · exact absurd ⟨name, hname, hsome⟩ (Headers.not_carries (by decide) hget)
      · exact ⟨token, value, htoken, hscoped⟩
    · intro hnot htruthy
      cases hheaders : platform.runtimeHeaders now now' req tenant with
      | error thrown => exact ⟨thrown, rfl⟩
      | ok headers =>
        obtain ⟨scope, hscope, -⟩ := Platform.runtimeHeaders_scope hpublic hheaders
        rcases Platform.displayScope_ok hscope with ⟨-, hfalse⟩ | ⟨token, value, htoken, -, hscoped⟩
        · rw [hfalse] at htruthy
          cases htruthy
        · exact absurd ⟨token, value, htoken, hscoped⟩ hnot

/-- A platform for requests that need no cryptography. -/
def plainPlatform : Platform where
  MANAGER_TOKEN := "0123456789abcdef0123456789abcdef"
  token_length := by decide
  hmac _ _ := List.replicate 32 0
  base64url _ := []
  utf8 _ := ""
  finite _ := none
  stringify _ := ""
  absolute _ := none

def garage : Tenant :=
  ⟨20000, 20000, 19000, "c", "a", "/data/tenants/g", "2f1c0b2d-9ad7-4e74-8c2c-4bdcb9f365b0",
    "garage", "Garage", true, "http://s", "k"⟩

def webhook : Request := ⟨"/in/public/garage/x/../%63amera//event?n=1".toList,
  ⟨fun _ => none, by simp⟩, false⟩

theorem tenantForRequest_webhook : plainPlatform.tenantForRequest [(garage.tenant_id, garage)] webhook =
    .ok (⟨"/camera/event?n=1".toList, webhook.headers, true⟩, some garage) := by
  have hne : webhook.url ≠ [] := by decide
  have hurl : plainPlatform.newUrl webhook.url = .ok ⟨"/in/public/garage/%63amera//event".toList,
        some "n=1".toList⟩ := by
    decide +kernel
  have hmatch : publicMatch "/in/public/garage/%63amera//event".toList = some ("garage".toList,
        "/%63amera//event".toList) := by
    decide +kernel
  have htenant : Platform.tenantBySlug [(garage.tenant_id, garage)] "garage".toList = .ok
      (some garage) := by decide +kernel
  have hpath : plainPlatform.publicRuntimePath "/%63amera//event".toList = .ok
      (some "/camera/event".toList) := by decide +kernel
  have hrest : "/%63amera//event".toList ≠ [] := by decide
  simp only [Platform.tenantForRequest, bind, Except.bind, if_neg hne, hurl, hmatch, htenant,
    if_neg hrest, hpath]
  rfl

theorem ingress_confined_webhook :
    ∃ url, plainPlatform.newUrl "/camera/event?n=1".toList = .ok url ∧
      ∀ ops path, normalise url.pathname ops = some path → ¬ Reserved path :=
  ((ingress_confined plainPlatform [(garage.tenant_id, garage)] 0 0).1 _ _ _ tenantForRequest_webhook rfl).1

def emptyScope : Headers where
  get name := if name = "x-betterframe-display-scope" then some (.text "") else none
  lower_name name h := by
    split at h
    · next he => exact he ▸ by decide
    · simp at h

/-- An empty display scope is dropped, and the request goes on without it. -/
theorem empty_scope_passes : ¬ ∀ req tenant, req.bfPublic = false →
    req.headers.Carries "x-betterframe-display-scope" →
    (∃ token scope, req.headers.get "x-betterframe-display-scope" = some (.text token) ∧
      plainPlatform.Scoped 0 0 tenant token scope) ∨
    ∃ thrown, plainPlatform.runtimeHeaders 0 0 req tenant = .error thrown := by
  intro h
  have hempty : Json.parse "" = none := by simp [Json.parse, Json.parseValue, Json.skip]
  have hscope : plainPlatform.displayScope 0 0 ⟨['/'], emptyScope, false⟩ garage = .ok none := by
    rw [Platform.displayScope]
    simp [emptyScope, truthyHeader]
  have hne : ['/'] ≠ [] := by simp
  have hurl : plainPlatform.newUrl ['/'] = .ok ⟨['/'], none⟩ := by decide +kernel
  have hdecode : decodeURIComponent ['/'] = some ['/'] := by decide +kernel
  rcases h ⟨['/'], emptyScope, false⟩ garage rfl ⟨_, rfl, by simp [emptyScope]⟩ with
    ⟨token, scope, -, hscoped⟩ | ⟨thrown, hthrown⟩
  · exact absurd (hempty.symm.trans hscoped.payload) (by simp)
  · simp only [Platform.runtimeHeaders, Bool.false_eq_true, if_false, hscope] at hthrown
    rw [if_neg hne, hurl] at hthrown
    simp only [bind, Except.bind, pure, Except.pure] at hthrown
    rw [hdecode] at hthrown
    cases hthrown

end Manager
