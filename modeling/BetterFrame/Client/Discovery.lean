import BetterFrame.Client.OriginMigration
import Mathlib.Data.List.Pairwise

/-!
# Discovering a server

`server_origin`, `discovery_probe` and `validate_discovery_redirect` of `core/src/protocol.rs` and
`discover` of `network.rs`. A discovery is one probe and the redirects that the servers answer with;
the URL library is a parameter.
-/

namespace Discovery

open Text

/-- The host of a URL, by its kind. -/
inductive Host where
  | domain (name : String)
  | ipv4 (a b c d : UInt8)
  | ipv6 (address : BitVec 128)
deriving DecidableEq

/-- A URL as the URL library parses it; a port that is the scheme's own is not kept. -/
structure Url where
  scheme : String
  username : String
  password : Option String
  host : Option Host
  port : Option Nat
  path : String
  query : Option String
  fragment : Option String
deriving DecidableEq

def default_port (scheme : String) : Option Nat :=
  match scheme with
  | "http" | "ws" => some 80
  | "https" | "wss" => some 443
  | "ftp" => some 21
  | _ => none

namespace Url

variable (url : Url)

/-- `port_or_known_default`. -/
def knownPort : Option Nat := url.port.or (default_port url.scheme)

/-- Nothing where the origin is opaque. -/
def origin : Option (String × Host × Nat) :=
  if (default_port url.scheme).isSome then url.host.bind fun host => url.knownPort.map fun port =>
    (url.scheme, host, port) else none

/-- An opaque origin is equal to no other. -/
def sameOrigin (other : Url) : Bool := url.origin.isSome && url.origin = other.origin

/-- The host is local: `localhost`, a `.local` name or a private address. -/
def local_discovery_host : Bool :=
  match url.host with
  | some (.domain host) => host = "localhost" || ".local".toList.isSuffixOf host.toList
  | some (.ipv4 a b _ _) =>
    a = 127 || (a = 10 || a = 172 && 16 ≤ b && b ≤ 31 || a = 192 && b = 168) || a = 169 && b = 254
  | some (.ipv6 address) =>
    let segment := address.toNat >>> 112
    address = 1 || segment &&& 0xfe00 = 0xfc00 || segment &&& 0xffc0 = 0xfe80
  | none => false

/-- The URL has more than an origin and a path. -/
def hasExtras : Bool := url.username ≠ "" || url.password.isSome || url.query.isSome || url.fragment.isSome

/-- The origin alone. -/
def bare : Url := { url with username := "", password := none, path := "/", query := none, fragment := none }

end Url

/-- `hostText` is how the library writes a host. -/
structure Library where
  parse : String → Option Url
  hostText : Host → String

variable (lib : Library)

/-- `origin().ascii_serialization()`. -/
def server_origin (url : Url) : String :=
  match url.origin with
  | none => "null"
  | some (scheme, host, port) =>
    if default_port scheme = some port then scheme ++ "://" ++ lib.hostText host
    else scheme ++ "://" ++ lib.hostText host ++ ":" ++ toString port

def MAX_DISCOVERY_REDIRECTS : Nat := 5

/-- The URL that a discovery asks first. -/
def discovery_probe (origin : String) : Except String Url :=
  match lib.parse (trimWhitespace origin) with
  | none => .error "invalid server origin"
  | some url =>
    if url.hasExtras || !(url.path = "" || url.path = "/") then
      .error "server must be an origin without credentials, path, query or fragment"
    else if url.scheme ≠ "https" && !(url.scheme = "http" && url.local_discovery_host) then
      .error "remote discovery requires HTTPS; HTTP is supported only for local servers"
    else .ok { url with path := "/healthz" }

/-- Whether a redirect is followed, after that many. -/
def validate_discovery_redirect (previous next : Url) (followed : Nat) : Except String Unit :=
  if MAX_DISCOVERY_REDIRECTS ≤ followed then .error "too many server discovery redirects"
  else if next.hasExtras || !(next.path = "/" || next.path = "/healthz") then
    .error "invalid server discovery redirect"
  else if next.scheme ≠ "https" &&
      !(previous.scheme = "http" && next.scheme = "http" && previous.sameOrigin next &&
        next.local_discovery_host) then
    .error "server discovery redirects must use HTTPS"
  else .ok ()

/-- What the server at the URL last contacted does. -/
inductive Answer where
  | failed (error : String)
  | response (status : Nat)
  | redirect (next : Url)

/-- `discovery_policy` over the URLs already contacted: those contacted in the end, and the last
one's response. -/
def send (previous : List Url) : List Answer → List Url × Except String (Url × Nat)
  | [] => (previous, .error "no answer")
  | .failed error :: _ => (previous, .error error)
  | .response status :: _ =>
    match previous.getLast? with
    | none => (previous, .error "missing discovery origin")
    | some last => (previous, .ok (last, status))
  | .redirect next :: answers =>
    match previous.getLast? with
    | none => (previous, .error "missing discovery origin")
    | some last =>
      match validate_discovery_redirect last next (previous.length - 1) with
      | .error error => (previous, .error error)
      | .ok () => send (previous ++ [next]) answers

/-- The URLs contacted, and the result. -/
def discover (origin : String) (explicit : Bool) (answers : List Answer) : List Url × Except String String :=
  match discovery_probe lib origin with
  | .error error => ([], .error error)
  | .ok probe =>
    match send [probe] answers with
    | (visited, .error error) => (visited, .error ("server discovery failed: " ++ error))
    | (visited, .ok (url, status)) =>
      if 200 ≤ status && status < 300 || explicit && status = 404 then (visited, .ok (server_origin lib url))
      else (visited, .error ("server discovery returned HTTP " ++ toString status))

/-! ### What is assumed of the URL library, and what a discovery keeps -/

/-- The URL comes from the library. -/
def Library.Parsed (url : Url) : Prop := ∃ text, lib.parse text = some url

/-- What the documentation of the URL library says of it. -/
structure Library.Documented : Prop where
  /-- Every host is written without white space. -/
  clean : ∀ url, lib.Parsed url → ∀ host ∈ url.host, ∀ c ∈ (lib.hostText host).toList, isWhitespace c = false
  /-- What an origin is written as is parsed to that origin. -/
  reparse : ∀ url, lib.Parsed url → url.scheme = "http" ∨ url.scheme = "https" →
    lib.parse (server_origin lib url) = some url.bare

/-- A URL that may be contacted after a probe of `start`. -/
structure Allowed (start url : Url) : Prop where
  extras : url.hasExtras = false
  path : url.path = "/" ∨ url.path = "/healthz"
  scheme : url.scheme = "http" ∨ url.scheme = "https"
  http : url.scheme = "http" → url.local_discovery_host ∧ url.origin = start.origin

/-- No URL is contacted by http after one by https. -/
def Upgrades (visited : List Url) : Prop := visited.Pairwise fun a b => a.scheme = "https" →
  b.scheme = "https"

/-- What may be said of the URLs that a discovery has contacted. -/
structure Safe (start : Url) (visited : List Url) : Prop where
  head : visited.head? = some start
  allowed : ∀ url ∈ visited, Allowed start url
  length : visited.length ≤ MAX_DISCOVERY_REDIRECTS + 1
  upgrades : Upgrades visited

variable {lib} {start last next : Url} {visited : List Url}

theorem trimWhitespace_clean {s : String} (h : ∀ c ∈ s.toList, isWhitespace c = false) :
    trimWhitespace s = s := by
  have hdrop : ∀ cs : List Char, (∀ c ∈ cs, isWhitespace c = false) → cs.dropWhile isWhitespace = cs := by
    intro cs hcs
    cases cs with
    | nil => rfl
    | cons c cs => exact List.dropWhile_cons_of_neg (by simp [hcs c (List.mem_cons_self ..)])
  have hrev : ∀ c ∈ s.toList.reverse, isWhitespace c = false := fun c hc => h c (List.mem_reverse.1 hc)
  unfold trimWhitespace trimWhitespaceChars
  rw [hdrop _ h, hdrop _ hrev, List.reverse_reverse, String.ofList_toList]

theorem discovery_probe_ok {origin : String} {probe : Url} (h : discovery_probe lib origin = .ok probe) :
    ∃ url, lib.parse (trimWhitespace origin) = some url ∧ probe = { url with path := "/healthz" } ∧
    url.hasExtras = false ∧
      (url.path = "" ∨ url.path = "/") ∧
      (url.scheme = "https" ∨ url.scheme = "http" ∧ url.local_discovery_host) := by
  unfold discovery_probe at h
  split at h
  · cases h
  · next url hparse =>
    split at h
    · cases h
    · next hextras =>
      split at h
      · cases h
      · next hscheme =>
        refine ⟨url, hparse, (Except.ok.inj h).symm, ?_⟩
        simp only [Bool.or_eq_true, not_or, Bool.not_eq_true] at hextras
        simp only [Bool.and_eq_true, decide_eq_true_eq, Bool.not_eq_true', not_and, Bool.not_eq_false,
          ne_eq] at hscheme
        refine ⟨hextras.1, ?_, ?_⟩
        · exact or_iff_not_imp_left.2 (by simpa using hextras.2)
        · by_cases hs : url.scheme = "https"
          · exact .inl hs
          · exact .inr (by simpa using hscheme hs)

theorem validate_ok {followed : Nat} (h : validate_discovery_redirect last next followed = .ok ()) :
    followed < MAX_DISCOVERY_REDIRECTS ∧ next.hasExtras = false ∧ (next.path = "/" ∨ next.path = "/healthz") ∧
      (next.scheme = "https" ∨
        last.scheme = "http" ∧ next.scheme = "http" ∧ next.origin = last.origin ∧
        next.local_discovery_host) := by
  unfold validate_discovery_redirect at h
  split at h
  · cases h
  · next hfollowed =>
    split at h
    · cases h
    · next hextras =>
      split at h
      · cases h
      · next hscheme =>
        simp only [Bool.or_eq_true, not_or, Bool.not_eq_true] at hextras
        refine ⟨by omega, hextras.1, or_iff_not_imp_left.2 (by simpa using hextras.2), ?_⟩
        by_cases hs : next.scheme = "https"
        · exact .inl hs
        · refine .inr ?_
          simp only [ne_eq, hs, not_false_eq_true, decide_true, Bool.true_and, Bool.not_eq_true',
            Bool.not_eq_false, Bool.and_eq_true, decide_eq_true_eq] at hscheme
          obtain ⟨⟨⟨hlast, hnext⟩, hsame⟩, hlocal⟩ := hscheme
          unfold Url.sameOrigin at hsame
          exact ⟨hlast, hnext, (of_decide_eq_true (Bool.and_eq_true_iff.1 hsame).2).symm, hlocal⟩

/-- What a migration between origins sees of a URL. -/
def Url.summary (lib : Library) (url : Url) : OriginMigration.Url where
  scheme := url.scheme
  username := url.username
  password := url.password
  host := url.host.map lib.hostText
  local_host := url.local_discovery_host
  path := url.path
  query := url.query
  fragment := url.fragment
  origin := server_origin lib url

/-- A migration probes origins as a discovery does. -/
theorem discovery_probe_summary (origin : String) :
    OriginMigration.discovery_probe (fun text => (lib.parse text).map (Url.summary lib)) origin =
      (discovery_probe lib origin).map (Url.summary lib) := by
  unfold OriginMigration.discovery_probe discovery_probe
  cases hparse : lib.parse (trimWhitespace origin) with
  | none =>
    simp only [hparse, Option.map_none]
    rfl
  | some url =>
    have hextras : ((url.summary lib).username ≠ "" ∨ (url.summary lib).password.isSome ∨
      (url.summary lib).query.isSome ∨
        (url.summary lib).fragment.isSome ∨ ¬ ((url.summary lib).path = "" ∨ (url.summary lib).path = "/")) ↔
        (url.hasExtras || !(url.path = "" || url.path = "/")) = true := by
      simp [Url.summary, Url.hasExtras, or_assoc]
    have hscheme : ((url.summary lib).scheme ≠ "https" ∧
      ¬ ((url.summary lib).scheme = "http" ∧ (url.summary lib).local_host)) ↔
        (url.scheme ≠ "https" && !(url.scheme = "http" && url.local_discovery_host)) = true := by
      simp [Url.summary, imp_iff_not_or]
    simp only [hparse, Option.map_some]
    rw [if_congr hextras rfl rfl]
    split
    · rfl
    · rw [if_congr hscheme rfl rfl]
      split <;> rfl

/-- A redirect that passes is safe. -/
theorem Safe.follow (h : Safe start visited) (hlast : visited.getLast? = some last)
    (hvalid : validate_discovery_redirect last next (visited.length - 1) = .ok ()) :
    Safe start (visited ++ [next]) := by
  obtain ⟨hfollowed, hextras, hpath, hscheme⟩ := validate_ok hvalid
  obtain ⟨before, rfl⟩ := List.getLast?_eq_some_iff.1 hlast
  have hmem : last ∈ before ++ [last] := List.mem_append_right _ (List.mem_singleton_self _)
  refine ⟨?_, ?_, ?_, ?_⟩
  · rw [List.head?_append, h.head]
    rfl
  · intro url hurl
    rcases List.mem_append.1 hurl with hurl | hurl
    · exact h.allowed url hurl
    · obtain rfl := List.mem_singleton.1 hurl
      refine ⟨hextras, hpath, ?_, fun hhttp => ?_⟩
      · exact hscheme.elim .inr fun h => .inl h.2.1
      · rcases hscheme with hs | ⟨hl, -, horigin, hlocal⟩
        · exact absurd (hs.symm.trans hhttp) (by decide)
        · exact ⟨hlocal, horigin.trans ((h.allowed last hmem).http hl).2⟩
  · simp only [List.length_append, List.length_singleton] at hfollowed ⊢
    omega
  · refine List.pairwise_append.2 ⟨h.upgrades, List.pairwise_singleton .., fun a ha b hb => ?_⟩
    obtain rfl := List.mem_singleton.1 hb
    intro hs
    have hlast : last.scheme = "https" := by
      rcases List.mem_append.1 ha with ha | ha
      · exact (List.pairwise_append.1 h.upgrades).2.2 a ha last (List.mem_singleton_self _) hs
      · exact List.mem_singleton.1 ha ▸ hs
    rcases hscheme with hs | ⟨hl, -⟩
    · exact hs
    · exact absurd (hlast.symm.trans hl) (by decide)

/-- The URLs contacted stay safe, and the response is that of one of them. -/
theorem Safe.send (h : Safe start visited) (answers : List Answer) :
    Safe start (send visited answers).1 ∧ ∀ url status, (send visited answers).2 = .ok (url, status) →
    url ∈ (send visited answers).1 := by
  induction answers generalizing visited with
  | nil => exact ⟨h, fun _ _ h => nomatch h⟩
  | cons answer answers ih =>
    cases answer with
    | failed error => exact ⟨h, fun _ _ h => nomatch h⟩
    | response status =>
      unfold Discovery.send
      split
      · exact ⟨h, fun _ _ h => nomatch h⟩
      · next last hlast =>
        refine ⟨h, fun url status' hok => ?_⟩
        obtain ⟨rfl, -⟩ := Prod.mk.inj (Except.ok.inj hok)
        exact List.mem_of_getLast? hlast
    | redirect next =>
      unfold Discovery.send
      split
      · exact ⟨h, fun _ _ h => nomatch h⟩
      · next last hlast =>
        split
        · exact ⟨h, fun _ _ h => nomatch h⟩
        · next hvalid => exact ih (h.follow hlast hvalid)

/-- What is contacted was contacted before or is a redirect's target. -/
theorem mem_send {answers : List Answer} {url : Url} (h : url ∈ (send visited answers).1) :
    url ∈ visited ∨ .redirect url ∈ answers := by
  induction answers generalizing visited with
  | nil => exact .inl h
  | cons answer answers ih =>
    cases answer with
    | failed error => exact .inl h
    | response status =>
      unfold Discovery.send at h
      split at h <;> exact .inl h
    | redirect next =>
      unfold Discovery.send at h
      split at h
      · exact .inl h
      · split at h
        · exact .inl h
        · rcases ih h with hmem | hmem
          · rcases List.mem_append.1 hmem with hmem | hmem
            · exact .inl hmem
            · exact .inr (List.mem_singleton.1 hmem ▸ List.mem_cons_self ..)
          · exact .inr (List.mem_cons_of_mem _ hmem)

theorem safe_probe {origin : String} {probe : Url} (h : discovery_probe lib origin = .ok probe) :
    Safe probe [probe] := by
  obtain ⟨url, -, rfl, hextras, -, hscheme⟩ := discovery_probe_ok h
  refine ⟨rfl, fun visited hmem => ?_, by simp, List.pairwise_singleton ..⟩
  obtain rfl := List.mem_singleton.1 hmem
  refine ⟨hextras, .inr rfl, ?_, fun hhttp => ⟨?_, rfl⟩⟩
  · exact hscheme.elim .inr fun h => .inl h.1
  · exact hscheme.elim (fun hs => absurd (hs.symm.trans hhttp) (by decide)) fun h => h.2

/-! ### Origins -/

/-- The text of an origin depends on scheme, host and port. -/
theorem server_origin_congr {url other : Url} (hscheme : url.scheme = other.scheme)
    (hhost : url.host = other.host)
    (hport : url.port = other.port) : server_origin lib url = server_origin lib other := by
  unfold server_origin Url.origin Url.knownPort
  rw [hscheme, hhost, hport]

theorem origin_parts {url : Url} {scheme : String} {host : Host} {port : Nat}
    (h : url.origin = some (scheme, host, port)) :
    scheme = url.scheme ∧ host ∈ url.host := by
  unfold Url.origin at h
  split at h
  · obtain ⟨found, hfound, h⟩ := Option.bind_eq_some_iff.1 h
    obtain ⟨_, -, h⟩ := Option.map_eq_some_iff.1 h
    obtain ⟨hscheme, h⟩ := Prod.mk.inj h
    exact ⟨hscheme.symm, (Prod.mk.inj h).1 ▸ hfound⟩
  · cases h

theorem isWhitespace_digit {n : Nat} {c : Char} (h : c ∈ (toString n).toList) : isWhitespace c = false := by
  rw [Nat.toString_eq_ofList_toDigits, String.toList_ofList] at h
  have hdigit := Nat.isDigit_of_mem_toDigits (by decide) (by decide) h
  simp only [Char.isDigit, Bool.and_eq_true, decide_eq_true_eq] at hdigit
  have hleast : 48 ≤ c.toNat := UInt32.le_iff_toNat_le.1 hdigit.1
  have hmost : c.toNat ≤ 57 := UInt32.le_iff_toNat_le.1 hdigit.2
  simp only [isWhitespace, Bool.or_eq_false_iff, Bool.and_eq_false_iff, decide_eq_false_iff_not]
  omega

theorem isWhitespace_of_all {cs : List Char} (h : cs.all (fun c => !isWhitespace c) = true) :
    ∀ c ∈ cs, isWhitespace c = false := by
  simpa using h

/-- An origin is written without white space. -/
theorem trim_server_origin (hlib : lib.Documented) {url : Url} (hurl : lib.Parsed url)
    (hscheme : url.scheme = "http" ∨ url.scheme = "https") :
    trimWhitespace (server_origin lib url) = server_origin lib url := by
  refine trimWhitespace_clean fun c hc => ?_
  unfold server_origin at hc
  split at hc
  · exact isWhitespace_of_all (by decide : "null".toList.all _ = true) c hc
  · next scheme host port horigin =>
    obtain ⟨rfl, hhost⟩ := origin_parts horigin
    have hprefix : ∀ c ∈ url.scheme.toList, isWhitespace c = false := by
      rcases hscheme with h | h <;> rw [h] <;> exact isWhitespace_of_all (by decide)
    have hseparator : ∀ c ∈ "://".toList, isWhitespace c = false := isWhitespace_of_all (by decide)
    have hcolon : ∀ c ∈ ":".toList, isWhitespace c = false := isWhitespace_of_all (by decide)
    split at hc <;> simp only [String.toList_append, List.mem_append] at hc
    · rcases hc with (hc | hc) | hc
      · exact hprefix c hc
      · exact hseparator c hc
      · exact hlib.clean url hurl host hhost c hc
    · rcases hc with (((hc | hc) | hc) | hc) | hc
      · exact hprefix c hc
      · exact hseparator c hc
      · exact hlib.clean url hurl host hhost c hc
      · exact hcolon c hc
      · exact isWhitespace_digit hc

/-- The origin of a URL that may be contacted can be probed again. -/
theorem probe_server_origin (hlib : lib.Documented) {url : Url} (hurl : lib.Parsed url)
    (hscheme : url.scheme = "https" ∨ url.scheme = "http" ∧ url.local_discovery_host) :
    ∃ probe, discovery_probe lib (server_origin lib url) = .ok probe ∧
    server_origin lib probe = server_origin lib url := by
  have hweb : url.scheme = "http" ∨ url.scheme = "https" := hscheme.elim .inr fun h => .inl h.1
  refine ⟨{ url.bare with path := "/healthz" }, ?_, server_origin_congr rfl rfl rfl⟩
  unfold discovery_probe
  rw [trim_server_origin hlib hurl hweb, hlib.reparse url hurl hweb]
  have hextras : (url.bare.hasExtras || !(url.bare.path = "" || url.bare.path = "/")) = false := rfl
  have hpasses : (url.bare.scheme ≠ "https" &&
        !(url.bare.scheme = "http" && url.bare.local_discovery_host)) = false := by
    rw [show url.bare.local_discovery_host = url.local_discovery_host from rfl,
      show url.bare.scheme = url.scheme from rfl]
    rcases hscheme with hs | ⟨hs, hhost⟩
    · simp [hs]
    · simp [hs, hhost]
  dsimp only
  rw [hextras, hpasses]
  rfl

/-- A discovery contacts few and only safe URLs, does not leave https and reaches no other server by
http; the origin it returns can be discovered again and is then returned. -/
theorem discovery_safe (lib : Library) (hlib : lib.Documented) (origin : String) (explicit : Bool)
    (answers : List Answer) (htargets : ∀ next, .redirect next ∈ answers → lib.Parsed next) :
    ((∀ url ∈ (discover lib origin explicit answers).1, url.hasExtras = false ∧
      (url.path = "/" ∨ url.path = "/healthz")) ∧
      (discover lib origin explicit answers).1.length ≤ 6 ∧
      Upgrades (discover lib origin explicit answers).1 ∧
      ∀ url ∈ (discover lib origin explicit answers).1, url.scheme = "https" ∨
        url.scheme = "http" ∧ url.local_discovery_host ∧ ∃ start, discovery_probe lib origin = .ok start ∧
        url.origin = start.origin) ∧ ∀ found, (discover lib origin explicit answers).2 = .ok found →
      ∃ probe, discovery_probe lib found = .ok probe ∧ server_origin lib probe = found := by
  cases hprobe : discovery_probe lib origin with
  | error error =>
    have hnone : discover lib origin explicit answers = ([], .error error) := by
      unfold discover
      rw [hprobe]
    rw [hnone]
    exact ⟨⟨nofun, Nat.zero_le 6, List.Pairwise.nil, nofun⟩, nofun⟩
  | ok probe =>
    obtain ⟨hsafe, hresponse⟩ := (safe_probe hprobe).send answers
    have hvisited : (discover lib origin explicit answers).1 = (send [probe] answers).1 := by
      unfold discover
      rw [hprobe]
      dsimp only
      split
      · next heq => rw [heq]
      · next heq =>
        rw [heq]
        split <;> rfl
    rw [hvisited]
    refine ⟨⟨fun url hurl => ?_, hsafe.length, hsafe.upgrades, fun url hurl => ?_⟩, fun found hfound => ?_⟩
    · exact ⟨(hsafe.allowed url hurl).extras, (hsafe.allowed url hurl).path⟩
    · have hallowed := hsafe.allowed url hurl
      rcases hallowed.scheme with hs | hs
      · exact .inr ⟨hs, (hallowed.http hs).1, probe, rfl, (hallowed.http hs).2⟩
      · exact .inl hs
    · obtain ⟨url, status, hsent, rfl⟩ : ∃ url status, (send [probe] answers).2 = .ok (url, status) ∧
          found = server_origin lib url := by
        unfold discover at hfound
        rw [hprobe] at hfound
        dsimp only at hfound
        split at hfound
        · cases hfound
        · next visited url status heq =>
          split at hfound
          · exact ⟨url, status, congrArg Prod.snd heq, (Except.ok.inj hfound).symm⟩
          · cases hfound
      have hurl := hresponse url status hsent
      have hallowed := hsafe.allowed url hurl
      -- the URL that was parsed, before its path was set
      obtain ⟨parsed, hparsed, hscheme, hhost, hport⟩ : ∃ parsed, lib.Parsed parsed ∧
        parsed.scheme = url.scheme ∧ parsed.host = url.host ∧ parsed.port = url.port := by
        rcases mem_send hurl with hmem | hmem
        · obtain rfl := List.mem_singleton.1 hmem
          obtain ⟨parsed, hparse, rfl, -⟩ := discovery_probe_ok hprobe
          exact ⟨parsed, ⟨_, hparse⟩, rfl, rfl, rfl⟩
        · exact ⟨url, htargets url hmem, rfl, rfl, rfl⟩
      rw [← server_origin_congr hscheme hhost hport]
      refine probe_server_origin hlib hparsed ?_
      rcases hallowed.scheme with hs | hs
      · refine .inr ⟨hscheme.trans hs, ?_⟩
        have hlocal : parsed.local_discovery_host = url.local_discovery_host := by
          unfold Url.local_discovery_host
          rw [hhost]
        rw [hlocal]
        exact (hallowed.http hs).1
      · exact .inl (hscheme.trans hs)

/-! ### A local server that sends a kiosk on -/

def localServer : Url := ⟨"http", "", none, some (.ipv4 192 168 1 2), some 18081, "/", none, none⟩

def regionalServer : Url :=
  ⟨"https", "", none, some (.domain "frame-eu.betterportal.net"), none, "/healthz", none, none⟩

/-- A library that knows these two servers. -/
def twoServers : Library where
  parse text :=
    if text = "http://192.168.1.2:18081" then some localServer
    else if text = "https://frame-eu.betterportal.net/healthz" then some regionalServer
    else if text = "https://frame-eu.betterportal.net" then some regionalServer.bare
    else none
  hostText
    | .domain name => name
    | .ipv4 a b c d =>
      toString a.toNat ++ "." ++ toString b.toNat ++ "." ++ toString c.toNat ++ "." ++ toString d.toNat
    | .ipv6 _ => "[::]"

theorem twoServers_parsed {url : Url} (h : twoServers.Parsed url) : url = localServer ∨
    url = regionalServer ∨ url = regionalServer.bare := by
  obtain ⟨text, htext⟩ := h
  simp only [twoServers] at htext
  split at htext
  · exact .inl (Option.some.inj htext).symm
  · split at htext
    · exact .inr (.inl (Option.some.inj htext).symm)
    · split at htext
      · exact .inr (.inr (Option.some.inj htext).symm)
      · cases htext

theorem twoServers_documented : twoServers.Documented where
  clean url hurl host hhost := by
    rcases twoServers_parsed hurl with rfl | rfl | rfl <;> obtain rfl := Option.some.inj hhost <;>
      exact isWhitespace_of_all (by decide +kernel)
  reparse url hurl _ := by
    rcases twoServers_parsed hurl with rfl | rfl | rfl <;> rfl

theorem discovery_safe_regional :
    ∃ probe, discovery_probe twoServers "https://frame-eu.betterportal.net" = .ok probe ∧
    server_origin twoServers probe = "https://frame-eu.betterportal.net" := by
  refine (discovery_safe twoServers twoServers_documented "http://192.168.1.2:18081" false
    [.redirect regionalServer, .response 200] fun next hnext => ?_).2 _ (by decide +kernel)
  obtain rfl : next = regionalServer := by simpa using hnext
  exact ⟨"https://frame-eu.betterportal.net/healthz", by decide +kernel⟩

end Discovery
