import Mathlib.Data.List.TakeWhile
import Mathlib.Data.UInt

/-!
# Where the ioBOX sends requests (http_policy.h, main.cpp)

`parseHttpUrl` reads a URL by hand, and `allowHttpRequest` compares what it finds with the
configured server. `allowHttpRequest_origin` says that every reading of an accepted URL by the
generic syntax names the same host, port and target.
-/

namespace IoBoxHttp

abbrev Bytes := List UInt8

/-- The bytes of a text of Latin characters. -/
def bytes (s : String) : Bytes := s.toList.map fun c => UInt8.ofNat c.toNat

/-! ### The policy -/

/-- What a request is for. -/
inductive HttpTarget where
  | Server
  | Enrollment
  | LocalKiosk
deriving DecidableEq

/-- A URL, in parts. -/
structure HttpUrl where
  host : Bytes
  path : Bytes
  port : Nat
  https : Bool
deriving DecidableEq

def colon : UInt8 := 58
def slash : UInt8 := 47
def question : UInt8 := 63
def hash : UInt8 := 35
def atSign : UInt8 := 64
def backslash : UInt8 := 92

/-- The characters that clients may read in different ways. -/
def rejected (ch : UInt8) : Bool := ch ≤ 0x20 || ch = 0x7f || ch = backslash || ch = hash || ch = atSign

def endsAuthority (ch : UInt8) : Bool := ch = slash || ch = question

def isUpper (ch : UInt8) : Bool := 65 ≤ ch && ch ≤ 90

def lower (ch : UInt8) : UInt8 := if isUpper ch then ch + 32 else ch

def isDigit (ch : UInt8) : Bool := 48 ≤ ch && ch ≤ 57

/-- A character of a host, in lower case. -/
def hostChar (ch : UInt8) : Bool := (97 ≤ ch && ch ≤ 122) || isDigit ch || ch = 45 || ch = 46

def digitsValue (port : Bytes) : Nat := port.foldl (fun value ch => value * 10 + (ch.toNat - 48)) 0

/-- The port that is written, if it is one. -/
def parsePort (port : Bytes) : Option Nat :=
  if port = [] ∨ 5 < port.length then none
  else if !port.all isDigit then none
  else
    let value := digitsValue port
    if value = 0 ∨ 65535 < value then none else some value

def defaultPort (https : Bool) : Nat := if https then 443 else 80

/-- The port of an authority, of which this is what follows the host. -/
def portOf (https : Bool) : Bytes → Option Nat
  | [] => some (defaultPort https)
  | _ :: port => parsePort port

/-- The target without a host: it begins with a slash. -/
def pathOf (target : Bytes) : Bytes :=
  if target = [] then [slash] else if target.head? = some question then slash :: target else target

/-- What follows the scheme. -/
def parseScheme (url : Bytes) : Option (Bool × Bytes) :=
  if (bytes "https://").isPrefixOf url then some (true, url.drop 8)
  else if (bytes "http://").isPrefixOf url then some (false, url.drop 7)
  else none

def parseHttpUrl (url : Bytes) : Option HttpUrl :=
  match parseScheme url with
  | none => none
  | some (https, rest) =>
    if url.any rejected then none
    else
      let authority := rest.takeWhile (!endsAuthority ·)
      let target := rest.dropWhile (!endsAuthority ·)
      let host := authority.takeWhile (· ≠ colon)
      if host = [] then none
      else if !(host.map lower).all hostChar then none
      else
        (portOf https (authority.dropWhile (· ≠ colon))).map fun port =>
          ⟨host.map lower, pathOf target, port, https⟩

/-- The request may be made, with what the server was configured to be. -/
def allowHttpRequest (configuredServer requestUrl : Bytes) (target : HttpTarget) : Bool :=
  match parseHttpUrl requestUrl with
  | none => false
  | some request =>
    if target = .LocalKiosk then (bytes "/local/").isPrefixOf request.path
    else
      match parseHttpUrl configuredServer with
      | none => false
      | some server =>
        server.https && request.https && server.host = request.host && server.port = request.port

/-- `c_str()` copies what stands before the first zero byte. -/
def cString (s : Bytes) : Bytes := s.takeWhile (· ≠ 0)

/-- The parts as the HTTP client is given them, which are C strings. -/
def parseUrl (url : Bytes) : Option HttpUrl :=
  (parseHttpUrl url).map fun parsed =>
    { parsed with host := cString parsed.host, path := cString parsed.path }

def crlf : Bytes := [13, 10]

/-- The first lines that are written to the connection. -/
def requestHead (method : Bytes) (parsed : HttpUrl) : Bytes :=
  method ++ bytes " " ++ parsed.path ++ bytes " HTTP/1.0" ++ crlf ++ bytes "Host: " ++ parsed.host ++ crlf

/-! ### The generic syntax -/

/-- A URL put together of its parts (RFC 3986, 3). -/
structure Reading (url : Bytes) where
  scheme : Bytes
  userinfo : Option Bytes
  host : Bytes
  port : Option Bytes
  target : Bytes
  fragment : Option Bytes
  whole : url = scheme ++ bytes "://" ++
    ((userinfo.elim [] (· ++ [atSign])) ++ host ++ port.elim [] (colon :: ·)) ++ target ++
    fragment.elim [] (hash :: ·)
  scheme_colon : colon ∉ scheme
  userinfo_plain : ∀ u ∈ userinfo, ∀ c ∈ u, c ∉ [slash, question, hash, atSign]
  host_plain : ∀ c ∈ host, c ∉ [slash, question, hash, atSign]
  /-- A host with a colon is an address in brackets. -/
  host_colon : colon ∈ host → host.head? = some 91
  port_digits : ∀ p ∈ port, p.all isDigit = true
  target_start : target = [] ∨ target.head? = some slash ∨ target.head? = some question
  target_plain : hash ∉ target

namespace Reading

variable {url : Bytes}

/-- The port that is meant where none is written, or an empty one. -/
def effectivePort (r : Reading url) : Nat :=
  match r.port with
  | none | some [] => defaultPort (r.scheme = bytes "https")
  | some port => digitsValue port

/-- The path with its query, where an empty path is `/`. -/
def requestTarget (r : Reading url) : Bytes := if r.target.head? = some slash then r.target
  else slash :: r.target

end Reading

/-! ### Parts that end where they can -/

/-- The list goes on with something that `p` does not hold of, or not at all. -/
def Stops (p : UInt8 → Bool) (s : Bytes) : Prop := ∀ c ∈ s.head?, p c = false

section Parts

variable {p : UInt8 → Bool} {a b a' b' s : Bytes}

theorem takeWhile_append (ha : ∀ c ∈ a, p c = true) (hb : Stops p b) : (a ++ b).takeWhile p = a ∧
    (a ++ b).dropWhile p = b := by
  rw [List.takeWhile_append_of_pos ha, List.dropWhile_append_of_pos ha]
  cases b with
  | nil => simp
  | cons c b =>
    have hc := hb c rfl
    rw [List.takeWhile_cons_of_neg (by simp [hc]), List.dropWhile_cons_of_neg (by simp [hc]), List.append_nil]
    exact ⟨rfl, rfl⟩

theorem parts_unique (h : a ++ b = a' ++ b') (ha : ∀ c ∈ a, p c = true) (hb : Stops p b)
    (ha' : ∀ c ∈ a', p c = true) (hb' : Stops p b') :
    a = a' ∧ b = b' := by
  obtain ⟨htake, hdrop⟩ := takeWhile_append ha hb
  obtain ⟨htake', hdrop'⟩ := takeWhile_append ha' hb'
  rw [h] at htake hdrop
  exact ⟨htake.symm.trans htake', hdrop.symm.trans hdrop'⟩

theorem stops_dropWhile (p : UInt8 → Bool) (s : Bytes) : Stops p (s.dropWhile p) := by
  intro c hc
  have hhead := List.head?_dropWhile_not p s
  rw [Option.mem_def.1 hc] at hhead
  simpa using hhead

end Parts

/-! ### Accepted URLs -/

section Accepted

variable {url : Bytes} {u : HttpUrl}

/-- What an accepted URL is put together of. -/
structure Accepted (url : Bytes) (u : HttpUrl) where
  host : Bytes
  port : Option Bytes
  target : Bytes
  whole : url = bytes (if u.https then "https" else "http") ++ bytes "://" ++
    (host ++ port.elim [] (colon :: ·)) ++ target
  clean : ∀ c ∈ url, rejected c = false
  host_ne : host ≠ []
  host_chars : ∀ c ∈ host, hostChar (lower c) = true
  host_eq : u.host = host.map lower
  port_eq : port.elim (some (defaultPort u.https)) parsePort = some u.port
  target_start : Stops (!endsAuthority ·) target
  path_eq : u.path = pathOf target

theorem exists_accepted (h : parseHttpUrl url = some u) : Nonempty (Accepted url u) := by
  unfold parseHttpUrl at h
  split at h
  · cases h
  next https rest hscheme =>
    have hwhole : url = bytes (if https then "https" else "http") ++ bytes "://" ++ rest := by
      unfold parseScheme at hscheme
      split_ifs at hscheme with hs hp
      · obtain ⟨rfl, rfl⟩ := Prod.mk.inj (Option.some.inj hscheme)
        obtain ⟨t, rfl⟩ := List.isPrefixOf_iff_prefix.1 hs
        rfl
      · obtain ⟨rfl, rfl⟩ := Prod.mk.inj (Option.some.inj hscheme)
        obtain ⟨t, rfl⟩ := List.isPrefixOf_iff_prefix.1 hp
        rfl
    dsimp only at h
    split_ifs at h with hclean hempty hchars
    obtain ⟨port, hport, rfl⟩ := Option.map_eq_some_iff.1 h
    generalize hauthority : rest.takeWhile (!endsAuthority ·) = authority at *
    generalize hafter : authority.dropWhile (fun c => decide (c ≠ colon)) = after at *
    have hrest : authority ++ rest.dropWhile (!endsAuthority ·) = rest := by
      rw [← hauthority]
      exact List.takeWhile_append_dropWhile
    have hsplit : authority.takeWhile (fun c => decide (c ≠ colon)) ++ after = authority := by
      rw [← hafter]
      exact List.takeWhile_append_dropWhile
    have hcolon : after.tail?.elim [] (colon :: ·) = after := by
      cases after with
      | nil => rfl
      | cons c after =>
        have hstop := stops_dropWhile (fun c => decide (c ≠ colon)) authority c (by rw [hafter]; rfl)
        rw [show c = colon by simpa using hstop]
        rfl
    refine ⟨⟨_, after.tail?, rest.dropWhile (!endsAuthority ·), ?_, ?_, hempty, ?_, rfl, ?_,
      stops_dropWhile _ rest, rfl⟩⟩
    · rw [hcolon, hsplit, List.append_assoc, hrest, hwhole]
    · intro c hc
      by_contra hrejected
      exact hclean (List.any_eq_true.2 ⟨c, hc, by simpa using hrejected⟩)
    · rw [Bool.not_eq_true', Bool.not_eq_false, List.all_eq_true] at hchars
      exact fun c hc => hchars _ (List.mem_map_of_mem hc)
    · cases after with
      | nil => exact hport
      | cons c after => exact hport

/-- No host has a character that separates parts. -/
theorem Accepted.host_plain (a : Accepted url u) :
    ∀ c ∈ a.host, c ∉ [slash, question, hash, atSign, colon, 91] := by
  intro c hc hmem
  have hchar := a.host_chars c hc
  simp only [List.mem_cons, List.not_mem_nil, or_false] at hmem
  rcases hmem with rfl | rfl | rfl | rfl | rfl | rfl <;> exact absurd hchar (by decide)

theorem Accepted.port_digits (a : Accepted url u) : ∀ p ∈ a.port, p.all isDigit = true ∧ p ≠ [] ∧
    digitsValue p = u.port ∧ 0 < u.port ∧ u.port ≤ 65535 := by
  intro p hp
  have hport := a.port_eq
  rw [Option.mem_def.1 hp] at hport
  have hparse : parsePort p = some u.port := hport
  unfold parsePort at hparse
  split_ifs at hparse with hsize hdigits
  dsimp only at hparse
  split_ifs at hparse with hvalue
  have heq := Option.some.inj hparse
  rw [not_or] at hsize hvalue
  exact ⟨by simpa using hdigits, hsize.1, heq, by omega, by omega⟩

/-- A digit is none of the characters that end an authority. -/
theorem digit_plain {c : UInt8} (h : isDigit c = true) : c ∉ [slash, question, hash, atSign, colon] := by
  intro hmem
  simp only [List.mem_cons, List.not_mem_nil, or_false] at hmem
  rcases hmem with rfl | rfl | rfl | rfl | rfl <;> exact absurd h (by decide)

/-- The parts of an accepted URL are a reading of it. -/
def Accepted.reading (a : Accepted url u) : Reading url where
  scheme := bytes (if u.https then "https" else "http")
  userinfo := none
  host := a.host
  port := a.port
  target := a.target
  fragment := none
  whole := by simpa using a.whole
  scheme_colon := by cases u.https <;> decide
  userinfo_plain := by simp
  host_plain := fun c hc hmem => a.host_plain c hc (by
    simp only [List.mem_cons, List.not_mem_nil, or_false] at hmem ⊢
    tauto)
  host_colon := fun hc => absurd (by simp) (a.host_plain colon hc)
  port_digits := fun p hp => (a.port_digits p hp).1
  target_start := by
    cases htarget : a.target with
    | nil => exact .inl rfl
    | cons c target =>
      have hstop := a.target_start c (by rw [htarget]; rfl)
      rw [Bool.not_eq_false', endsAuthority, Bool.or_eq_true, decide_eq_true_eq, decide_eq_true_eq] at hstop
      rcases hstop with rfl | rfl
      · exact .inr (.inl rfl)
      · exact .inr (.inr rfl)
  target_plain := fun hmem => by
    have hclean := a.clean hash (by rw [a.whole]; exact List.mem_append_right _ hmem)
    exact absurd hclean (by decide)

theorem not_mem_url (a : Accepted url u) {c : UInt8} (h : rejected c = true) : c ∉ url := fun hmem => by
  rw [a.clean c hmem] at h
  cases h

/-- What stands between the scheme and the target. -/
def Reading.authority (r : Reading url) : Bytes := r.host ++ r.port.elim [] (colon :: ·)

/-- No reading of an accepted URL has user information or a fragment. -/
theorem Reading.bare (r : Reading url) (a : Accepted url u) : r.userinfo = none ∧ r.fragment = none ∧
    url = r.scheme ++ bytes "://" ++ r.authority ++ r.target := by
  have hat := not_mem_url a (c := atSign) (by decide)
  have hhash := not_mem_url a (c := hash) (by decide)
  have huser : r.userinfo = none := by
    cases h : r.userinfo with
    | none => rfl
    | some userinfo => exact absurd (by rw [r.whole, h]; simp) hat
  have hfragment : r.fragment = none := by
    cases h : r.fragment with
    | none => rfl
    | some fragment => exact absurd (by rw [r.whole, h]; simp) hhash
  refine ⟨huser, hfragment, ?_⟩
  have hwhole := r.whole
  rw [huser, hfragment] at hwhole
  simpa [authority] using hwhole

theorem Reading.authority_plain (r : Reading url) : ∀ c ∈ r.authority, (!endsAuthority c) = true := by
  intro c hc
  have hne : c ≠ slash ∧ c ≠ question := by
    rcases List.mem_append.1 hc with hc | hc
    · have := r.host_plain c hc
      simp only [List.mem_cons, List.not_mem_nil, or_false, not_or] at this
      exact ⟨this.1, this.2.1⟩
    · cases hport : r.port with
      | none => simp [hport] at hc
      | some port =>
        rw [hport] at hc
        rcases List.mem_cons.1 hc with rfl | hc
        · decide
        · have := digit_plain (List.all_eq_true.1 (r.port_digits port hport) c hc)
          simp only [List.mem_cons, List.not_mem_nil, or_false, not_or] at this
          exact ⟨this.1, this.2.1⟩
  simp [endsAuthority, hne]

theorem Reading.target_stops (r : Reading url) : Stops (!endsAuthority ·) r.target := by
  intro c hc
  rcases r.target_start with hnil | hslash | hquestion
  · rw [hnil] at hc
    cases hc
  · obtain rfl := Option.some.inj (hslash.symm.trans hc)
    rfl
  · obtain rfl := Option.some.inj (hquestion.symm.trans hc)
    rfl

/-- Two readings of an accepted URL have the same scheme, authority and target. -/
theorem parts_eq (a : Accepted url u) (r s : Reading url) : r.scheme = s.scheme ∧
    r.authority = s.authority ∧ r.target = s.target := by
  obtain ⟨-, -, hr⟩ := r.bare a
  obtain ⟨-, -, hs⟩ := s.bare a
  have hmark : ∀ t : Bytes, Stops (fun c => decide (c ≠ colon)) (bytes "://" ++ t) := fun t c hc => by
    obtain rfl := Option.some.inj (show some colon = some c from hc)
    rfl
  have hplain : ∀ q : Reading url, ∀ c ∈ q.scheme, (fun c => decide (c ≠ colon)) c = true := fun q c hc =>
    decide_eq_true fun h => q.scheme_colon (h ▸ hc)
  have hwhole := hr.symm.trans hs
  simp only [List.append_assoc] at hwhole
  obtain ⟨hscheme, hrest⟩ := parts_unique hwhole (hplain r) (hmark _) (hplain s) (hmark _)
  obtain ⟨hauthority, htarget⟩ :=
    parts_unique (List.append_cancel_left hrest) r.authority_plain r.target_stops s.authority_plain
      s.target_stops
  exact ⟨hscheme, hauthority, htarget⟩

/-- Every reading of an accepted URL names the host and the port that were found. -/
theorem host_port_eq (a : Accepted url u) (r : Reading url) : r.host = a.host ∧ r.port = a.port := by
  have hauthority : r.authority = a.host ++ a.port.elim [] (colon :: ·) := (parts_eq a r a.reading).2.1
  have hnot : colon ∉ a.host := fun hc => a.host_plain colon hc (by simp)
  have hbracket : colon ∉ r.host := by
    intro hc
    have hhead := r.host_colon hc
    obtain ⟨x, host, hx⟩ := List.exists_cons_of_ne_nil (List.ne_nil_of_mem hc)
    obtain ⟨y, rest, hy⟩ := List.exists_cons_of_ne_nil a.host_ne
    rw [hx] at hhead
    obtain rfl := Option.some.inj hhead
    rw [Reading.authority, hx, hy, List.cons_append, List.cons_append] at hauthority
    refine a.host_plain y (by rw [hy]; exact List.mem_cons_self) ?_
    rw [← (List.cons.inj hauthority).1]
    simp
  have hstops : ∀ port : Option Bytes, Stops (fun c => decide (c ≠ colon)) (port.elim [] (colon :: ·)) := by
    intro port c hc
    cases port with
    | none => cases hc
    | some port =>
      obtain rfl := Option.some.inj (show some colon = some c from hc)
      rfl
  have hother : ∀ host : Bytes, colon ∉ host → ∀ c ∈ host, (fun c => decide (c ≠ colon)) c = true :=
    fun host hhost c hc =>
    decide_eq_true fun h => hhost (h ▸ hc)
  obtain ⟨hhost, hport⟩ := parts_unique hauthority (hother _ hbracket) (hstops _) (hother _ hnot) (hstops _)
  refine ⟨hhost, ?_⟩
  cases hr : r.port <;> cases ha : a.port <;> rw [hr, ha] at hport
  · cases hport
  · cases hport
  · exact congrArg some (List.cons.inj hport).2

/-- An accepted URL can be read, and every reading finds the parts that were found. -/
theorem readings_agree (h : parseHttpUrl url = some u) : Nonempty (Reading url) ∧ ∀ r : Reading url,
    r.scheme = bytes (if u.https then "https" else "http") ∧ r.userinfo = none ∧ r.fragment = none ∧
    r.host.map lower = u.host ∧ r.effectivePort = u.port ∧ r.requestTarget = u.path := by
  obtain ⟨a⟩ := exists_accepted h
  refine ⟨⟨a.reading⟩, fun r => ?_⟩
  obtain ⟨huser, hfragment, -⟩ := r.bare a
  obtain ⟨hscheme, -, htarget⟩ := parts_eq a r a.reading
  obtain ⟨hhost, hport⟩ := host_port_eq a r
  have hscheme' : r.scheme = bytes (if u.https then "https" else "http") := hscheme
  refine ⟨hscheme', huser, hfragment, by rw [hhost, a.host_eq], ?_, ?_⟩
  · have hdefault : defaultPort (r.scheme = bytes "https") = defaultPort u.https := by
      rw [hscheme']
      cases u.https <;> rfl
    have hfound := a.port_eq
    unfold Reading.effectivePort
    rw [hport]
    cases hp : a.port with
    | none =>
      rw [hp] at hfound
      exact hdefault.trans (Option.some.inj hfound)
    | some port =>
      obtain ⟨-, hne, hvalue, -⟩ := a.port_digits port hp
      cases port with
      | nil => exact absurd rfl hne
      | cons c port => exact hvalue
  · have htarget' : r.target = a.target := htarget
    rw [Reading.requestTarget, htarget', a.path_eq, pathOf]
    rcases r.target_start with hnil | hslash | hquestion
    · rw [← htarget', hnil]
      rfl
    · have hne : a.target ≠ [] := by
        rintro hnil
        rw [htarget', hnil] at hslash
        cases hslash
      rw [← htarget', if_pos hslash, if_neg (by rw [htarget']; exact hne), hslash, if_neg (by decide)]
    · have hne : a.target ≠ [] := by
        rintro hnil
        rw [htarget', hnil] at hquestion
        cases hquestion
      rw [← htarget', hquestion, if_neg (by decide), if_neg (by rw [htarget']; exact hne), if_pos rfl]

end Accepted

/-! ### Requests -/

section Requests

variable {url configuredServer requestUrl : Bytes} {u : HttpUrl}

/-- A character that stands in no line break and ends no part of a request line. -/
def Printable (c : UInt8) : Prop := 0x20 < c ∧ c ≠ 0x7f ∧ c ∉ [backslash, hash, atSign]

theorem printable_of_clean {c : UInt8} (h : rejected c = false) : Printable c := by
  simp only [rejected, Bool.or_eq_false_iff, decide_eq_false_iff_not, UInt8.not_le] at h
  refine ⟨h.1.1.1.1, h.1.1.1.2, ?_⟩
  simp only [List.mem_cons, List.not_mem_nil, or_false, not_or]
  exact ⟨h.1.1.2, h.1.2, h.2⟩

theorem rejected_of_hostChar {c : UInt8} (h : hostChar c = true) : rejected c = false := by
  simp only [hostChar, isDigit, rejected, backslash, hash, atSign, Bool.or_eq_true, Bool.and_eq_true,
    decide_eq_true_eq,
    Bool.or_eq_false_iff, decide_eq_false_iff_not, UInt8.le_iff_toNat_le, ← UInt8.toNat_inj,
      UInt8.reduceToNat] at h ⊢
  omega

theorem path_printable (h : parseHttpUrl url = some u) : (∀ c ∈ url, Printable c) ∧
    (∀ c ∈ u.path, Printable c) ∧ ∀ c ∈ u.host, Printable c := by
  obtain ⟨a⟩ := exists_accepted h
  have hurl : ∀ c ∈ url, Printable c := fun c hc => printable_of_clean (a.clean c hc)
  have htarget : ∀ c ∈ a.target, Printable c :=
    fun c hc => hurl c (by rw [a.whole]; exact List.mem_append_right _ hc)
  refine ⟨hurl, fun c hc => ?_, fun c hc => ?_⟩
  · rw [a.path_eq, pathOf] at hc
    split_ifs at hc
    · obtain rfl := List.mem_singleton.1 hc
      exact printable_of_clean (by decide)
    · rcases List.mem_cons.1 hc with rfl | hc
      · exact printable_of_clean (by decide)
      · exact htarget c hc
    · exact htarget c hc
  · rw [a.host_eq] at hc
    obtain ⟨d, hd, rfl⟩ := List.mem_map.1 hc
    exact printable_of_clean (rejected_of_hostChar (a.host_chars d hd))

theorem cString_eq {s : Bytes} (h : ∀ c ∈ s, Printable c) : cString s = s := by
  refine List.takeWhile_eq_self_iff.2 fun c hc => decide_eq_true ?_
  rintro rfl
  exact absurd (h 0 hc).1 (by decide)

/-- The copies of the parts lose nothing. -/
theorem parseUrl_eq (url : Bytes) : parseUrl url = parseHttpUrl url := by
  unfold parseUrl
  cases h : parseHttpUrl url with
  | none => rfl
  | some u =>
    obtain ⟨-, hpath, hhost⟩ := path_printable h
    rw [Option.map_some, cString_eq hpath, cString_eq hhost]

theorem port_range (h : parseHttpUrl url = some u) : 0 < u.port ∧ u.port ≤ 65535 := by
  obtain ⟨a⟩ := exists_accepted h
  cases hport : a.port with
  | none =>
    have hfound := a.port_eq
    rw [hport] at hfound
    rw [← show defaultPort u.https = u.port from Option.some.inj hfound]
    cases u.https <;> decide
  | some port => exact (a.port_digits port hport).2.2.2

/-- The line breaks of the request's first lines are its own. -/
theorem count_requestHead {c : UInt8} (h : parseHttpUrl url = some u) (hc : c ∈ crlf) (method : Bytes) :
    (requestHead method u).count c = method.count c + 2 := by
  obtain ⟨-, hpath, hhost⟩ := path_printable h
  have hnot : ∀ s : Bytes, (∀ x ∈ s, Printable x) → s.count c = 0 := fun s hs =>
      List.count_eq_zero.2 fun hmem => by
    have hprint := (hs c hmem).1
    simp only [crlf, List.mem_cons, List.not_mem_nil, or_false] at hc
    rcases hc with rfl | rfl <;> exact absurd hprint (by decide)
  have hfixed : (bytes " ").count c = 0 ∧ (bytes " HTTP/1.0").count c = 0 ∧
      (bytes "Host: ").count c = 0 ∧ crlf.count c = 1 := by
    simp only [crlf, List.mem_cons, List.not_mem_nil, or_false] at hc
    rcases hc with rfl | rfl <;> decide
  simp only [requestHead, List.count_append, hnot _ hpath, hnot _ hhost, hfixed]

/-- An accepted request goes to the origin of the configured server, or to a local path, however its
URL is read. -/
theorem allowHttpRequest_origin {target : HttpTarget}
    (h : allowHttpRequest configuredServer requestUrl target = true) :
    (∀ c ∈ requestUrl, Printable c) ∧ ∃ request, parseUrl requestUrl = some request ∧
    0 < request.port ∧ request.port ≤ 65535 ∧ Nonempty (Reading requestUrl) ∧
      (∀ r : Reading requestUrl, r.userinfo = none ∧ r.fragment = none ∧ r.host.map lower = request.host ∧
        r.effectivePort = request.port ∧ r.requestTarget = request.path) ∧
      (∀ method, ∀ c ∈ crlf, (requestHead method request).count c = method.count c + 2) ∧
      if target = .LocalKiosk then bytes "/local/" <+: request.path
      else Nonempty (Reading configuredServer) ∧ ∀ (s : Reading configuredServer) (r : Reading requestUrl),
        s.scheme = bytes "https" ∧ r.scheme = bytes "https" ∧ s.host.map lower = r.host.map lower ∧
        s.effectivePort = r.effectivePort := by
  unfold allowHttpRequest at h
  split at h
  · cases h
  next request hrequest =>
    obtain ⟨hreadable, hreadings⟩ := readings_agree hrequest
    refine ⟨(path_printable hrequest).1, request, (parseUrl_eq requestUrl).trans hrequest,
      (port_range hrequest).1, (port_range hrequest).2,
      hreadable, fun r => (hreadings r).2, fun method c hc => count_requestHead hrequest hc method, ?_⟩
    split_ifs at h ⊢ with htarget
    · exact List.isPrefixOf_iff_prefix.1 h
    · split at h
      · cases h
      next server hserver =>
        simp only [Bool.and_eq_true, decide_eq_true_eq] at h
        obtain ⟨⟨⟨hsecure, hsecureRequest⟩, hhost⟩, hport⟩ := h
        obtain ⟨hserverReadable, hserverReadings⟩ := readings_agree hserver
        refine ⟨hserverReadable, fun s r => ?_⟩
        obtain ⟨hsScheme, -, -, hsHost, hsPort, -⟩ := hserverReadings s
        obtain ⟨hrScheme, -, -, hrHost, hrPort, -⟩ := hreadings r
        rw [hsecure, if_pos rfl] at hsScheme
        rw [hsecureRequest, if_pos rfl] at hrScheme
        exact ⟨hsScheme, hrScheme, by rw [hsHost, hrHost, hhost], by rw [hsPort, hrPort, hport]⟩

theorem allowHttpRequest_origin_query : (∀ c ∈ bytes "https://Cloud.example:443?id=1", Printable c) ∧
    ∃ request, parseUrl (bytes "https://Cloud.example:443?id=1") = some request ∧ 0 < request.port ∧
    request.port ≤ 65535 ∧ Nonempty (Reading (bytes "https://Cloud.example:443?id=1")) ∧
      (∀ r : Reading (bytes "https://Cloud.example:443?id=1"), r.userinfo = none ∧ r.fragment = none ∧
        r.host.map lower = request.host ∧
        r.effectivePort = request.port ∧ r.requestTarget = request.path) ∧
      (∀ method, ∀ c ∈ crlf, (requestHead method request).count c = method.count c + 2) ∧
      if HttpTarget.Enrollment = .LocalKiosk then bytes "/local/" <+: request.path
      else Nonempty (Reading (bytes "https://cloud.example")) ∧
        ∀ (s : Reading (bytes "https://cloud.example")) (r :
          Reading (bytes "https://Cloud.example:443?id=1")),
          s.scheme = bytes "https" ∧ r.scheme = bytes "https" ∧ s.host.map lower = r.host.map lower ∧
            s.effectivePort = r.effectivePort :=
  allowHttpRequest_origin (by decide)

example : parseHttpUrl (bytes "https://Cloud.example:443?id=1") = some ⟨bytes "cloud.example",
    bytes "/?id=1", 443, true⟩ := by
  decide

end Requests

end IoBoxHttp
