import BetterFrame.Lib.Crash
import BetterFrame.Lib.Text

/-!
# Downloads

`update_download.rs`: a download takes the authenticated route and falls back to the public one. The
answers of the server and the delay it last asked for are the environment's.
-/

namespace UpdateDownload

open Text

/-- A request for the rest of a download. -/
structure Request where
  path : String
  bearer : Option String
  offset : Nat
deriving DecidableEq

/-- One read of a body, and whether the update has been canceled by then. -/
structure Chunk where
  canceled : Bool
  /-- No bytes at all are the end of the body; `none` is an error. -/
  data : Option (List UInt8)
deriving DecidableEq

structure Response where
  status : Nat
  body : List Chunk
deriving DecidableEq

/-- The network at one moment. -/
structure Net where
  /-- The delay that the server asked for is not over. -/
  deferred : Bool
  send : Request → Option Response

def DEFERRED : String := "update download deferred by server rate limit"

def is_deferred (error : String) : Bool := error = DEFERRED

/-- The outcome of a pass that the server deferred. -/
def Deferred {σ α : Type} : Crash.Outcome String σ α → Bool
  | .thrown e _ _ => is_deferred e
  | _ => false

/-- `text` with the first occurrence of `pattern` replaced. -/
def replaceFirst (pattern replacement : List Char) : List Char → List Char
  | [] => []
  | c :: cs =>
    if pattern.isPrefixOf (c :: cs) then replacement ++ (c :: cs).drop pattern.length
    else c :: replaceFirst pattern replacement cs

def public_path (path : String) : String :=
  String.ofList (replaceFirst "/api/kiosk/os/download/".toList "/api/os/public/download/".toList
    (replaceFirst "/api/kiosk/firmware/download/".toList "/api/firmware/public/download/".toList path.toList))

/-- The authenticated route has not turned the request away. -/
def accepted (response : Response) : Bool :=
  response.status ≠ 401 ∧ response.status ≠ 403 ∧ response.status ≠ 404 ∧
    (response.status < 500 ∨ 599 < response.status)

/-- A GET: with the key at the path itself, or else at the public one. -/
def get (net : Net) (key : Option String) (path : String) (offset : Nat) : Except String Response :=
  if net.deferred then .error DEFERRED
  else
    let publicly := net.send ⟨public_path path, none, offset⟩
    let response := match (truthy key).filter fun _ => public_path path ≠ path with
      | some key =>
        match (net.send ⟨path, some key, offset⟩).filter accepted with
        | some response => some response
        | none => publicly
      | none => publicly
    match response with
    | none => .error "download request: request failed"
    | some response => if response.status = 429 then .error DEFERRED else .ok response

def success (status : Nat) : Bool := 200 ≤ status ∧ status < 300

end UpdateDownload
