import Mathlib.Algebra.Order.BigOperators.Group.List
import Mathlib.Algebra.Order.Ring.Nat
import Mathlib.Data.List.Find
import Mathlib.Data.List.Pairwise
import Mathlib.Data.Set.Finite.Range
import Mathlib.Order.Interval.Set.Infinite
import BetterFrame.Lib.Table
import BetterFrame.Lib.Text

/-!
# Syncing a camera device (routes-admin.ts, db/repository.ts)

`POST /admin/camera-devices/:id/sync` stores what discovery found: each channel in the camera that
has its id, else in the first that has one of its profile tokens, else in a new one.
`keeps_apart_iff` says for which stored cameras and discoveries channels stay apart.
-/

namespace DeviceSync

open Text (truthy)

inductive Role where
  | main
  | sub
  | other
deriving DecidableEq

def Role.name : Role → String
  | .main => "main"
  | .sub => "sub"
  | .other => "other"

/-- A number of JavaScript. -/
inductive Number where
  | finite (value : Rat)
  | nonFinite
deriving DecidableEq

/-- `Number.isFinite(n) ? n : null` -/
def Number.orNull : Option Number → Option Rat
  | some (.finite value) => some value
  | _ => none

structure DiscoveredProfile where
  profile_name : String
  profile_token : String
  source_token : Option String
  encoding : Option String
  width : Option Number
  height : Option Number
  framerate : Option Number
  stream_uri : String
  role : Role

structure DiscoveredCamera where
  name : String
  source_token : Option String
  profiles : List DiscoveredProfile

structure CameraStream where
  role : Role
  name : String
  rtsp_uri : String
  profile_token : Option String
  width : Option Rat
  height : Option Rat
  encoding : Option String
  framerate : Option Rat
  is_discovered : Bool
deriving DecidableEq

/-- A row of `cameras` with its rows of `camera_streams`. -/
structure Camera where
  id : String
  device_id : Option String
  device_channel_id : Option String
  name : String
  type : String
  rtsp_url : Option String
  onvif_host : Option String
  onvif_port : Option Nat
  onvif_username : Option String
  onvif_password : Option String
  enabled : Bool
  streams : List CameraStream
deriving DecidableEq

/-- The two rows stand at one place of `idx_cameras_device_channel`, which leaves out those without
a channel. -/
def Camera.SameChannel (a b : Camera) : Prop :=
  a.device_id.isSome ∧ a.device_id = b.device_id ∧ a.device_channel_id.isSome ∧
    a.device_channel_id = b.device_channel_id

instance : DecidableRel Camera.SameChannel := fun _ _ => inferInstanceAs (Decidable (_ ∧ _))

/-- The cameras; no two of one device have the same channel. -/
structure Db where
  cameras : Table Camera.id Camera.name
  channels : cameras.rows.Pairwise fun a b => ¬ a.SameChannel b

/-- `uuidv7` gives an id that is not among those given, `nameOrder` is the database's collation. -/
structure Platform where
  uuidv7 : List String → String
  uuidv7_fresh : ∀ used, uuidv7 used ∉ used
  nameOrder : String → String → Bool
  nameOrder_total : ∀ a b, nameOrder a b ∨ nameOrder b a
  nameOrder_trans : ∀ a b c, nameOrder a b → nameOrder b c → nameOrder a c
  stripRtspCredentials : String → Option String

/-- The device's row. -/
structure Device where
  id : String
  host : String
  port : Nat
  username : Option String
  password : Option String

/-! ### The repository -/

namespace Db

variable (P : Platform) (db : Db)

/-- `ORDER BY name` -/
def rowOrder (a b : Camera) : Prop := P.nameOrder a.name b.name

instance : DecidableRel (rowOrder P) := fun _ _ => inferInstanceAs (Decidable (_ = true))

def listCamerasByDevice (deviceId : String) : List Camera :=
  (db.cameras.rows.insertionSort (rowOrder P)).filter fun cam => cam.device_id = some deviceId

def getCameraByName (name : String) : Option Camera := db.cameras.rows.find? fun cam => cam.name = name

/-- The table after a statement, which fails where it breaks the index. -/
def checked (cameras : Table Camera.id Camera.name) : Except String Db :=
  if channels : cameras.rows.Pairwise fun a b => ¬ a.SameChannel b then .ok ⟨cameras, channels⟩
  else .error Table.duplicateKey

/-- `updateCamera` of columns that the keys do not have. -/
def updateCamera (id : String) (patch : Camera → Camera) (hid : ∀ cam, (patch cam).id = cam.id)
    (hname : ∀ cam, (patch cam).name = cam.name) : Except String Db :=
  checked <| db.cameras.update (fun cam => if cam.id = id then patch cam else cam)
    (fun cam => by by_cases h : cam.id = id <;> simp [h, hid]) fun cam => by
      by_cases h : cam.id = id <;> simp [h, hname]

def createCamera (cam : Camera) : Except String Db :=
  match db.cameras.insert cam with
  | none => .error Table.duplicateKey
  | some cameras => checked cameras

/-- A change to the rows of `camera_streams` of one camera. -/
def modifyStreams (id : String) (change : List CameraStream → List CameraStream) : Db where
  cameras := db.cameras.update (fun cam => if cam.id = id then { cam with streams := change cam.streams }
    else cam)
    (fun cam => by by_cases h : cam.id = id <;> simp [h]) fun cam => by by_cases h : cam.id = id <;> simp [h]
  channels := by
    refine List.pairwise_map.2 (db.channels.imp fun {a b} hab => ?_)
    by_cases ha : a.id = id <;> by_cases hb : b.id = id <;> simpa [ha, hb, Camera.SameChannel] using hab

def deleteCameraStreams (cameraId : String) : Db := db.modifyStreams cameraId fun _ => []

def createCameraStream (cameraId : String) (stream : CameraStream) : Db :=
  db.modifyStreams cameraId fun streams => streams ++ [stream]

end Db

/-! ### One channel -/

/-- The UTF-16 code units of a text. -/
def codeUnits (s : String) : List Nat := s.toList.flatMap fun c =>
  if c.toNat < 0x10000 then [c.toNat]
  else [0xd800 + (c.toNat - 0x10000) / 0x400, 0xdc00 + (c.toNat - 0x10000) % 0x400]

/-- The order of `<` on strings. -/
def unitsLe : List Nat → List Nat → Bool
  | [], _ => true
  | _ :: _, [] => false
  | a :: s, b :: t => a < b || (a = b && unitsLe s t)

/-- The order of `Array.prototype.sort`. -/
def codeUnitOrder (s t : String) : Prop := unitsLe (codeUnits s) (codeUnits t)

instance : DecidableRel codeUnitOrder := fun _ _ => inferInstanceAs (Decidable (_ = true))

def channelTokens (streams : List DiscoveredProfile) : List String :=
  (streams.map (·.profile_token)).filter (· ≠ "")

/-- The channel of a discovered camera: its source, or else its profiles. -/
def channelIdOf (sourceToken : Option String) (streams : List DiscoveredProfile) : String :=
  match truthy sourceToken with
  | some token => token
  | none =>
    match streams.findSome? fun stream => truthy stream.source_token with
    | some token => token
    | none => "|".intercalate ((channelTokens streams).insertionSort codeUnitOrder)

/-- One of the camera's streams has one of the tokens. -/
def Camera.shares (tokens : List String) (cam : Camera) : Bool :=
  cam.streams.any fun stream => (truthy stream.profile_token).any (· ∈ tokens)

/-- The camera of the listing that a channel is stored in. -/
def matching (listing : List Camera) (channelId : String) (tokens : List String) : Option Camera :=
  (listing.find? fun cam => cam.device_channel_id = some channelId).or
    (if tokens = [] then none else listing.find? (Camera.shares tokens))

def numbered (rawName : String) (i : Nat) : String := rawName ++ " (" ++ toString i ++ ")"

theorem numbered_inj {rawName : String} : Function.Injective (numbered rawName) := by
  intro m n h
  have hlist := congrArg String.toList h
  simp only [numbered, String.toList_append, List.append_assoc, List.append_cancel_left_eq,
    List.append_cancel_right_eq, Nat.toString_eq_ofList_toDigits, String.toList_ofList] at hlist
  have := congrArg (fun l => Nat.ofDigitChars 10 l 0) hlist
  simpa only [Nat.ofDigitChars_ten_toDigits] using this

/-- The loop of `uniqueCameraName` ends: there are more numbers than cameras. -/
theorem exists_free (names : List String) (rawName : String) : ∃ i, numbered rawName (i + 2) ∉ names := by
  have hinf : (Set.range fun i => numbered rawName (i + 2)).Infinite :=
    Set.infinite_range_of_injective (numbered_inj.comp (add_left_injective 2))
  obtain ⟨name, ⟨i, rfl⟩, hfree⟩ := hinf.exists_notMem_finset names.toFinset
  exact ⟨i, by simpa using hfree⟩

/-- The name, with the first number that makes it free. -/
def uniqueCameraName (db : Db) (rawName : String) : String :=
  if (db.getCameraByName rawName).isSome then
    numbered rawName (Nat.find (exists_free (db.cameras.rows.map (·.name)) rawName) + 2)
  else rawName

/-- `raw.replace(/old/g, new)`; the number is that of the characters still inside an occurrence. -/
def replaceAll (old new : List Char) : Nat → List Char → List Char
  | _, [] => []
  | skip + 1, _ :: raw => replaceAll old new skip raw
  | 0, c :: raw =>
    if old.isPrefixOf (c :: raw) then new ++ replaceAll old new (old.length - 1) raw
    else c :: replaceAll old new 0 raw

def decodeXmlEntities (raw : String) : String :=
  String.ofList (replaceAll "&gt;".toList ['>'] 0
    (replaceAll "&lt;".toList ['<'] 0 (replaceAll "&amp;".toList ['&'] 0 raw.toList)))

variable (P : Platform)

/-- The row of `camera_streams` that a profile becomes. -/
def DiscoveredProfile.stored (stream : DiscoveredProfile) : CameraStream :=
  let cleanUri := decodeXmlEntities stream.stream_uri
  { role := stream.role
    name := if stream.profile_name = "" then stream.role.name else stream.profile_name
    rtsp_uri := (P.stripRtspCredentials cleanUri).getD cleanUri
    profile_token := truthy (some stream.profile_token)
    width := Number.orNull stream.width
    height := Number.orNull stream.height
    encoding := truthy stream.encoding
    framerate := Number.orNull stream.framerate
    is_discovered := true }

/-- What an update writes to the camera's own row. -/
def Device.patch (device : Device) (channelId : String) (cam : Camera) : Camera :=
  { cam with
    device_channel_id := truthy (some channelId)
    onvif_host := some device.host
    onvif_port := some device.port
    onvif_username := some (device.username.getD "")
    onvif_password := some (device.password.getD "")
    enabled := true }

/-- The row that a channel gets when it has none. -/
def Device.newCamera (device : Device) (id channelId name : String) : Camera where
  id := id
  device_id := some device.id
  device_channel_id := truthy (some channelId)
  name := name
  type := "onvif"
  rtsp_url := none
  onvif_host := some device.host
  onvif_port := some device.port
  onvif_username := some (device.username.getD "")
  onvif_password := some (device.password.getD "")
  enabled := true
  streams := []

/-- The camera's id and whether it was created. -/
def importDiscoveredCamera (device : Device) (db : Db) (camera : DiscoveredCamera) :
    Except String (Option (String × Bool) × Db) :=
  if camera.profiles = [] then .ok (none, db)
  else
    let channelId := channelIdOf camera.source_token camera.profiles
    let store (db : Db) (id : String) :=
      camera.profiles.foldl (fun db stream => db.createCameraStream id (stream.stored P)) db
    match matching (db.listCamerasByDevice P device.id) channelId (channelTokens camera.profiles) with
    | some cam => do
      let db ← db.updateCamera cam.id (device.patch channelId) (fun _ => rfl) fun _ => rfl
      .ok (some (cam.id, false), store (db.deleteCameraStreams cam.id) cam.id)
    | none => do
      let name := uniqueCameraName db (if camera.name = "" then "ONVIF camera" else camera.name)
      let id := P.uuidv7 (db.cameras.rows.map (·.id))
      let db ← db.createCamera (device.newCamera id channelId name)
      .ok (some (id, true), store db id)

/-! ### A sync -/

/-- The database and the counts, after some of the channels. -/
structure Progress where
  db : Db
  /-- The cameras stored into, the latest last. -/
  seen : List String
  added : Nat
  updated : Nat

/-- One discovered camera, counted as created or updated. -/
def syncCamera (device : Device) (p : Progress) (camera : DiscoveredCamera) : Except String Progress := do
  match ← importDiscoveredCamera P device p.db camera with
  | (none, db) => .ok { p with db }
  | (some (id, created), db) =>
    .ok ⟨db, p.seen ++ [id], if created then p.added + 1 else p.added, if created then p.updated
      else p.updated + 1⟩

/-- One camera of the loop that disables what was not seen, with the count. -/
def disableUnseen (seen : List String) (r : Db × Nat) (cam : Camera) : Except String (Db × Nat) :=
  if cam.id ∉ seen ∧ cam.enabled then do
    let db ← r.1.updateCamera cam.id (fun cam => { cam with enabled := false }) (fun _ => rfl) fun _ => rfl
    .ok (db, r.2 + 1)
  else .ok r

/-- What a synchronisation returns. -/
structure Report where
  seen : List String
  added : Nat
  updated : Nat
  disabled : Nat

/-- `discovered` is what `onvifDiscover` returned. -/
def sync (device : Device) (db : Db) (discovered : List DiscoveredCamera) : Except String (Report × Db) := do
  let p ← discovered.foldlM (syncCamera P device) ⟨db, [], 0, 0⟩
  let (db, disabled) ← (p.db.listCamerasByDevice P device.id).foldlM (disableUnseen p.seen) (p.db, 0)
  .ok (⟨p.seen, p.added, p.updated, disabled⟩, db)

/-! ### Keeping channels apart -/

def DiscoveredCamera.channelId (camera : DiscoveredCamera) : String :=
  channelIdOf camera.source_token camera.profiles

def DiscoveredCamera.tokens (camera : DiscoveredCamera) : List String := channelTokens camera.profiles

/-- What discovery is taken to return. -/
structure Discovery (found : List DiscoveredCamera) : Prop where
  sources : (found.map (·.source_token)).Nodup
  tokens : (found.flatMap fun camera => camera.profiles.map (·.profile_token)).Nodup
  profiles : ∀ camera ∈ found, camera.profiles ≠ []

/-- No camera of the device has the empty channel id; a sync stores none (`named_turn`). -/
def Named (device : Device) (db : Db) : Prop :=
  ∀ cam ∈ db.cameras.rows, cam.device_id = some device.id → cam.device_channel_id ≠ some ""

/-- The sync completes with the channels in cameras of their own, and the next one does nothing. -/
def KeepsApart (device : Device) (db : Db) (found : List DiscoveredCamera) : Prop :=
  ∃ report db', sync P device db found = .ok (report, db') ∧
    report.seen.length = found.length ∧ report.seen.Nodup ∧
    (∀ cam ∈ db.cameras.rows, cam.device_id = some device.id →
      ∀ camera ∈ found, cam.device_channel_id = some camera.channelId →
      ∃ cam' ∈ db'.cameras.rows, cam'.id = cam.id ∧ cam'.device_channel_id = cam.device_channel_id) ∧
    (∀ cam ∈ db'.cameras.rows, cam.device_id = some device.id → cam.id ∉ report.seen → cam.enabled = false) ∧
    (∀ cam, cam.device_id ≠ some device.id → (cam ∈ db'.cameras.rows ↔ cam ∈ db.cameras.rows)) ∧
    (∀ d ∈ found.zip report.seen, ∃ cam ∈ db'.cameras.rows, cam.id = d.2 ∧
      cam.streams = d.1.profiles.map (DiscoveredProfile.stored P)) ∧
    ∃ again, sync P device db' found = .ok (again, db') ∧ again.added = 0 ∧ again.disabled = 0

/-- No channel takes, for one of its tokens, the camera of a channel whose turn is still to come. -/
def Unmoved : List Camera → List DiscoveredCamera → Prop
  | _, [] => True
  | listing, camera :: later =>
    match matching listing camera.channelId camera.tokens with
    | none => Unmoved listing later
    | some cam =>
      (cam.device_channel_id = some camera.channelId ∨
        ∀ d ∈ later, cam.device_channel_id ≠ some d.channelId) ∧
        Unmoved (listing.filter fun x => x.id ≠ cam.id) later

/-- Every channel found has an identity of its own, and no camera of the device has changed its
channel. -/
structure Clear (device : Device) (db : Db) (found : List DiscoveredCamera) : Prop where
  named : ∀ camera ∈ found, camera.channelId ≠ ""
  channels : (found.map (·.channelId)).Nodup
  unmoved : Unmoved (db.listCamerasByDevice P device.id) found

/-! ### The repository's writes -/

variable {P} {db db' : Db} {device : Device} {camera d : DiscoveredCamera} {cam x : Camera} {p p' : Progress}

theorem Camera.SameChannel.symm {a b : Camera} (h : a.SameChannel b) : b.SameChannel a :=
  ⟨h.2.1 ▸ h.1, h.2.1.symm, h.2.2.2 ▸ h.2.2.1, h.2.2.2.symm⟩

instance : Std.Symm fun a b : Camera => ¬ a.SameChannel b := ⟨fun _ _ hab hba => hab hba.symm⟩

theorem eq_of_channel {channelId : String} (hcam : cam ∈ db.cameras.rows) (hx : x ∈ db.cameras.rows)
    (hcamd : cam.device_id = some device.id) (hxd : x.device_id = some device.id)
    (hcamc : cam.device_channel_id = some channelId) (hxc : x.device_channel_id = some channelId) :
    cam = x := by
  by_contra hne
  exact db.channels.forall hcam hx hne
    ⟨by rw [hcamd]; rfl, hcamd.trans hxd.symm, by rw [hcamc]; rfl, hcamc.trans hxc.symm⟩

theorem Db.ext_rows (h : db.cameras.rows = db'.cameras.rows) : db = db' := by
  obtain ⟨⟨rows, _, _⟩, _⟩ := db
  obtain ⟨⟨rows', _, _⟩, _⟩ := db'
  obtain rfl : rows = rows' := h
  rfl

theorem checked_ok {cameras : Table Camera.id Camera.name} (h : Db.checked cameras = .ok db) :
    db.cameras = cameras := by
  unfold Db.checked at h
  split at h
  · exact Except.ok.inj h ▸ rfl
  · cases h

theorem updateCamera_ok {id : String} {patch : Camera → Camera} {hid : ∀ cam, (patch cam).id = cam.id}
    {hname : ∀ cam, (patch cam).name = cam.name} (h : db.updateCamera id patch hid hname = .ok db') :
    db'.cameras.rows = db.cameras.rows.map fun cam => if cam.id = id then patch cam else cam := by
  rw [checked_ok h]
  rfl

theorem createCamera_ok (h : db.createCamera cam = .ok db') :
    (∀ x ∈ db.cameras.rows, x.id ≠ cam.id) ∧ db'.cameras.rows = db.cameras.rows ++ [cam] := by
  unfold Db.createCamera at h
  split at h
  · cases h
  · next cameras hcameras =>
    obtain ⟨hkeys, hrows⟩ := Table.insert_eq_some hcameras
    exact ⟨fun x hx => (hkeys x hx).1, by rw [checked_ok h, hrows]⟩

/-- A change to one row keeps the index where no other row of the row's device has its new channel. -/
theorem exists_updateCamera {id : String} {patch : Camera → Camera} {hid : ∀ cam, (patch cam).id = cam.id}
    {hname : ∀ cam, (patch cam).name = cam.name}
    (h : ∀ cam ∈ db.cameras.rows, cam.id = id → ∀ x ∈ db.cameras.rows, x.id ≠ id →
      ¬ (patch cam).SameChannel x) :
    ∃ db', db.updateCamera id patch hid hname = .ok db' := by
  refine ⟨_, dif_pos ?_⟩
  refine List.pairwise_map.2
    (List.Pairwise.imp_of_mem ?_ (db.channels.and (List.pairwise_map.1 db.cameras.pk_nodup)))
  rintro a b ha hb ⟨hab, hids⟩
  by_cases haid : a.id = id <;> by_cases hbid : b.id = id
  · exact absurd (haid.trans hbid.symm) hids
  · simpa only [haid, hbid, if_true, if_false] using h a ha haid b hb hbid
  · simp only [haid, hbid, if_true, if_false]
    exact fun hsame => h b hb hbid a ha haid hsame.symm
  · simpa only [haid, hbid, if_false] using hab

theorem exists_createCamera (hkeys : ∀ x ∈ db.cameras.rows, x.id ≠ cam.id ∧ x.name ≠ cam.name)
    (h : ∀ x ∈ db.cameras.rows, ¬ x.SameChannel cam) : ∃ db', db.createCamera cam = .ok db' := by
  obtain ⟨cameras, hcameras⟩ := Table.exists_insert hkeys
  refine ⟨⟨cameras, ?_⟩, ?_⟩
  · rw [(Table.insert_eq_some hcameras).2]
    refine List.pairwise_append.2 ⟨db.channels, List.pairwise_singleton _ _, fun a ha b hb => ?_⟩
    rw [List.mem_singleton.1 hb]
    exact h a ha
  · simp only [Db.createCamera, hcameras]
    exact dif_pos _

theorem uniqueCameraName_free (rawName : String) :
    ∀ x ∈ db.cameras.rows, x.name ≠ uniqueCameraName db rawName := by
  intro x hx
  unfold uniqueCameraName
  split
  · intro hname
    exact Nat.find_spec (exists_free (db.cameras.rows.map (·.name)) rawName) (List.mem_map.2 ⟨x, hx, hname⟩)
  · next hfree =>
    rw [Option.not_isSome_iff_eq_none, Db.getCameraByName, List.find?_eq_none] at hfree
    simpa using hfree x hx

theorem rows_modifyStreams (id : String) (change : List CameraStream → List CameraStream) :
    (db.modifyStreams id change).cameras.rows =
      db.cameras.rows.map fun cam => if cam.id = id then { cam with streams := change cam.streams }
      else cam := rfl

/-- The rows after the streams of a camera were created one by one. -/
theorem rows_store (streams : List CameraStream) (id : String) (db : Db) :
    (streams.foldl (fun db stream => db.createCameraStream id stream) db).cameras.rows =
      db.cameras.rows.map fun cam => if cam.id = id then { cam with streams := cam.streams ++ streams }
      else cam := by
  induction streams generalizing db with
  | nil =>
    simp only [List.foldl_nil, List.append_nil, ite_self]
    exact (List.map_id' _).symm
  | cons stream streams ih =>
    rw [List.foldl_cons, ih, Db.createCameraStream, rows_modifyStreams, List.map_map]
    refine List.map_congr_left fun cam _ => ?_
    by_cases hid : cam.id = id <;> simp [hid]

/-! ### One turn -/

variable (P) in
/-- A row with the channel stored in it. -/
def Device.written (device : Device) (camera : DiscoveredCamera) (cam : Camera) : Camera :=
  { device.patch camera.channelId cam with streams := camera.profiles.map (DiscoveredProfile.stored P) }

variable (P) in
/-- The device's row has the channel as discovered. -/
def Holds (device : Device) (camera : DiscoveredCamera) (cam : Camera) : Prop :=
  cam.device_id = some device.id ∧ device.written P camera cam = cam

variable (P) in
/-- What a channel's turn does. -/
inductive Turn (device : Device) (p : Progress) (camera : DiscoveredCamera) : Progress → Prop
  | updated (cam : Camera) (hmatch : matching (p.db.listCamerasByDevice P device.id) camera.channelId
    camera.tokens = some cam) (db : Db)
    (hrows : db.cameras.rows = p.db.cameras.rows.map fun x =>
      if x.id = cam.id then device.written P camera x else x) :
    Turn device p camera ⟨db, p.seen ++ [cam.id], p.added, p.updated + 1⟩
  | created (hnone : matching (p.db.listCamerasByDevice P device.id) camera.channelId camera.tokens = none)
    (cam : Camera)
    (hid : ∀ x ∈ p.db.cameras.rows, x.id ≠ cam.id) (hcam : Holds P device camera cam) (db : Db)
    (hrows : db.cameras.rows = p.db.cameras.rows ++ [cam]) : Turn device p camera ⟨db,
      p.seen ++ [cam.id], p.added + 1, p.updated⟩

theorem bind_eq_ok {ε α β : Type} {x : Except ε α} {f : α → Except ε β} {b : β} (h : x >>= f = .ok b) :
    ∃ a, x = .ok a ∧ f a = .ok b := by
  cases x with
  | error error => cases h
  | ok a => exact ⟨a, rfl, h⟩

theorem newCamera_id (device : Device) (id channelId name : String) :
    (device.newCamera id channelId name).id = id := rfl

theorem truthy_eq {s t : String} (h : truthy (some s) = some t) : s = t :=
  Option.some.inj (Text.truthy_eq_some.1 h).1

theorem mem_listing {deviceId : String} : cam ∈ db.listCamerasByDevice P deviceId ↔
    cam ∈ db.cameras.rows ∧ cam.device_id = some deviceId := by
  simp [Db.listCamerasByDevice]

theorem matching_mem {listing : List Camera} {channelId : String} {tokens : List String}
    (h : matching listing channelId tokens = some cam) :
    cam ∈ listing ∧ (cam.device_channel_id = some channelId ∨
      (∀ x ∈ listing, x.device_channel_id ≠ some channelId) ∧ cam.shares tokens) := by
  unfold matching at h
  rcases Option.or_eq_some_iff.1 h with hchannel | ⟨hnone, htokens⟩
  · exact ⟨List.mem_of_find?_eq_some hchannel, .inl (by simpa using List.find?_some hchannel)⟩
  · split_ifs at htokens
    exact ⟨List.mem_of_find?_eq_some htokens, .inr ⟨by simpa using hnone, List.find?_some htokens⟩⟩

theorem matching_none {listing : List Camera} {channelId : String} {tokens : List String}
    (h : matching listing channelId tokens = none) :
    ∀ x ∈ listing, x.device_channel_id ≠ some channelId := by
  simpa using (Option.or_eq_none_iff.1 h).1

theorem turn_of_syncCamera (hprofiles : camera.profiles ≠ []) (h : syncCamera P device p camera = .ok p') :
    Turn P device p camera p' := by
  obtain ⟨⟨result, db⟩, himport, h⟩ := bind_eq_ok h
  simp only [importDiscoveredCamera, if_neg hprofiles] at himport
  split at himport
  · next cam hmatch =>
    obtain ⟨db₁, hupdate, himport⟩ := bind_eq_ok himport
    obtain ⟨rfl, rfl⟩ := Prod.mk.inj (Except.ok.inj himport)
    obtain rfl := Except.ok.inj h
    refine .updated cam hmatch _ ?_
    rw [← List.foldl_map, rows_store, Db.deleteCameraStreams, rows_modifyStreams,
      updateCamera_ok hupdate, List.map_map, List.map_map]
    refine List.map_congr_left fun x _ => ?_
    by_cases hid : x.id = cam.id <;> simp [hid, Device.written, Device.patch, DiscoveredCamera.channelId]
  · next hnone =>
    obtain ⟨db₁, hcreate, himport⟩ := bind_eq_ok himport
    obtain ⟨rfl, rfl⟩ := Prod.mk.inj (Except.ok.inj himport)
    obtain rfl := Except.ok.inj h
    obtain ⟨hid, hrows⟩ := createCamera_ok hcreate
    refine .created hnone { device.newCamera (P.uuidv7 (p.db.cameras.rows.map (·.id))) camera.channelId
      (uniqueCameraName p.db (if camera.name = "" then "ONVIF camera" else camera.name)) with
        streams := camera.profiles.map (DiscoveredProfile.stored P) } hid ⟨rfl, rfl⟩ _ ?_
    rw [← List.foldl_map, rows_store, hrows, List.map_append, List.map_singleton,
      if_pos (newCamera_id _ _ _ _)]
    congr 1
    refine (List.map_congr_left fun x hx => if_neg (hid x hx)).trans (List.map_id' _)

/-- No statement of a turn fails. -/
theorem exists_syncCamera (p : Progress) (hprofiles : camera.profiles ≠ []) :
    ∃ p', syncCamera P device p camera = .ok p' := by
  suffices h : ∃ id created db, importDiscoveredCamera P device p.db camera = .ok (some (id, created), db) by
    obtain ⟨id, created, db, h⟩ := h
    exact ⟨_, by simp only [syncCamera, h]; rfl⟩
  simp only [importDiscoveredCamera, if_neg hprofiles]
  split
  · next cam hmatch =>
    obtain ⟨hmem, hwhich⟩ := matching_mem hmatch
    obtain ⟨hcam, hdevice⟩ := mem_listing.1 hmem
    obtain ⟨db, hdb⟩ : ∃ db, p.db.updateCamera cam.id
      (device.patch (channelIdOf camera.source_token camera.profiles))
        (fun _ => rfl) (fun _ => rfl) = .ok db := by
      refine exists_updateCamera fun y hy hid x hx hne hsame => ?_
      obtain rfl := p.db.cameras.eq_of_pk hy hcam hid
      obtain ⟨-, hd, hsome, hc⟩ := hsame
      have hxd : x.device_id = some device.id := hd.symm.trans hdevice
      -- the row's new channel is that of another row of the device
      obtain ⟨channelId, hchannel⟩ := Option.isSome_iff_exists.1 hsome
      have hxc : x.device_channel_id = some (channelIdOf camera.source_token camera.profiles) := by
        rw [← hc, hchannel, (truthy_eq hchannel)]
      rcases hwhich with hyc | ⟨hall, -⟩
      · exact hne (congrArg Camera.id (eq_of_channel hx hy hxd hdevice hxc hyc))
      · exact hall x (mem_listing.2 ⟨hx, hxd⟩) hxc
    exact ⟨_, _, _, by rw [hdb]; rfl⟩
  · next hnone =>
    obtain ⟨db, hdb⟩ : ∃ db, p.db.createCamera (device.newCamera (P.uuidv7 (p.db.cameras.rows.map (·.id)))
        (channelIdOf camera.source_token camera.profiles)
        (uniqueCameraName p.db (if camera.name = "" then "ONVIF camera" else camera.name))) = .ok db := by
      refine exists_createCamera (fun x hx =>
        ⟨fun hid => P.uuidv7_fresh _ (List.mem_map.2 ⟨x, hx, hid⟩), uniqueCameraName_free _ x hx⟩)
        fun x hx hsame => ?_
      obtain ⟨-, hd, hsome, hc⟩ := hsame
      obtain ⟨channelId, hchannel⟩ := Option.isSome_iff_exists.1 hsome
      exact matching_none hnone x (mem_listing.2 ⟨hx, hd⟩)
        (by rw [hchannel, truthy_eq (hc.symm.trans hchannel)])
    exact ⟨_, _, _, by rw [hdb]; rfl⟩

theorem exists_run {found : List DiscoveredCamera} (hprofiles : ∀ camera ∈ found, camera.profiles ≠ [])
    (p : Progress) :
    ∃ p', found.foldlM (syncCamera P device) p = .ok p' := by
  induction found generalizing p with
  | nil => exact ⟨p, rfl⟩
  | cons camera later ih =>
    obtain ⟨p₁, h₁⟩ : ∃ p₁, syncCamera P device p camera = .ok p₁ :=
      exists_syncCamera p (hprofiles camera List.mem_cons_self)
    rw [List.foldlM_cons, h₁]
    exact ih (fun d hd => hprofiles d (List.mem_cons_of_mem _ hd)) p₁

/-! ### A camera that holds a channel -/

namespace Holds

theorem channel (h : Holds P device camera cam) (hnamed : camera.channelId ≠ "") :
    cam.device_channel_id = some camera.channelId := by
  rw [← h.2]
  exact Text.truthy_eq_some.2 ⟨rfl, hnamed⟩

theorem streams (h : Holds P device camera cam) :
    cam.streams = camera.profiles.map (DiscoveredProfile.stored P) := by
  rw [← h.2]
  rfl

theorem enabled (h : Holds P device camera cam) : cam.enabled = true := by
  rw [← h.2]
  rfl

theorem written (h : cam.device_id = some device.id) :
    Holds P device camera (device.written P camera cam) := ⟨h, rfl⟩

/-- Its streams have the tokens of the channel's profiles. -/
theorem shares (h : Holds P device camera cam) {tokens : List String} (hshares : cam.shares tokens) :
    ¬ camera.tokens.Disjoint tokens := by
  obtain ⟨stream, hstream, htoken⟩ := List.any_eq_true.1 hshares
  rw [h.streams] at hstream
  obtain ⟨profile, hprofile, rfl⟩ := List.mem_map.1 hstream
  obtain ⟨token, htruthy, hmem⟩ := (Option.any_eq_true _ _).1 htoken
  obtain ⟨hstored, hne⟩ := Text.truthy_eq_some.1 htruthy
  have heq : profile.profile_token = token := truthy_eq hstored
  refine fun hdisjoint => hdisjoint (List.mem_filter.2 ⟨List.mem_map.2 ⟨profile, hprofile, heq⟩, ?_⟩)
    (by simpa using hmem)
  simpa using hne

end Holds

namespace Turn

/-- One camera holds the channel; the other rows are left alone. -/
theorem effect (h : Turn P device p camera p') : ∃ cam ∈ p'.db.cameras.rows, p'.seen = p.seen ++
    [cam.id] ∧ Holds P device camera cam ∧
    p'.db.cameras.rows.filter (fun x => x.id ≠ cam.id) = p.db.cameras.rows.filter (fun x => x.id ≠ cam.id) ∧
    ∀ x ∈ p.db.cameras.rows, x.id = cam.id → x.device_id = some device.id := by
  cases h with
  | updated cam hmatch db hrows =>
    obtain ⟨hcam, hdevice⟩ := mem_listing.1 (matching_mem hmatch).1
    refine ⟨device.written P camera cam, ?_, rfl, .written hdevice, ?_, fun x hx hid => ?_⟩
    · rw [hrows]
      exact List.mem_map.2 ⟨cam, hcam, if_pos rfl⟩
    · rw [hrows, List.filter_map]
      refine (List.map_congr_left fun x hx => if_neg ?_).trans
        ((List.map_id' _).trans (List.filter_congr fun x _ => ?_))
      · intro hid
        have hx := List.of_mem_filter hx
        simp [hid, Device.written, Device.patch] at hx
      · by_cases hid : x.id = cam.id <;> simp [hid, Device.written, Device.patch]
    · rwa [p.db.cameras.eq_of_pk hx hcam hid]
  | created hnone cam hid hcam db hrows =>
    refine ⟨cam, by simp [hrows], rfl, hcam, ?_, fun x hx hcam => absurd hcam (hid x hx)⟩
    rw [hrows, List.filter_append]
    simp

theorem added_le (h : Turn P device p camera p') : p.added ≤ p'.added := by
  cases h with
  | updated => exact Nat.le_refl _
  | created => exact Nat.le_succ _

end Turn

/-! ### The invariant of a run -/

variable (P) in
/-- After the turns of `done`, when no two of its channels are one. -/
structure Inv (device : Device) (db₀ : Db) (done : List DiscoveredCamera) (p : Progress) : Prop where
  length : done.length = p.seen.length
  seen : p.seen.Nodup
  channels : (done.map (·.channelId)).Nodup
  holds : ∀ d ∈ done.zip p.seen, ∃ cam ∈ p.db.cameras.rows, cam.id = d.2 ∧ Holds P device d.1 cam
  rest : p.db.cameras.rows.filter (fun cam => cam.id ∉ p.seen) = db₀.cameras.rows.filter
    (fun cam => cam.id ∉ p.seen)
  others : ∀ cam, cam.device_id ≠ some device.id → (cam ∈ p.db.cameras.rows ↔ cam ∈ db₀.cameras.rows)

theorem filter_seen (seen : List String) (id : String) (rows : List Camera) :
    rows.filter (fun cam => cam.id ∉ seen ++ [id]) = (rows.filter fun cam => cam.id ∉ seen).filter
    fun cam => cam.id ≠ id := by
  rw [List.filter_filter]
  refine List.filter_congr fun cam _ => ?_
  by_cases hid : cam.id = id <;> simp [hid]

theorem mem_zip_of_mem {α β : Type*} {l : List α} {m : List β} (hlength : l.length = m.length) :
    (∀ a ∈ l, ∃ b ∈ m, (a, b) ∈ l.zip m) ∧ ∀ b ∈ m, ∃ a ∈ l, (a, b) ∈ l.zip m := by
  induction l generalizing m with
  | nil =>
    obtain rfl := List.length_eq_zero_iff.1 hlength.symm
    simp
  | cons a l ih =>
    cases m with
    | nil => cases hlength
    | cons b m =>
      obtain ⟨hleft, hright⟩ := ih (Nat.succ.inj hlength)
      refine ⟨fun x hx => ?_, fun y hy => ?_⟩
      · rcases List.mem_cons.1 hx with rfl | hx
        · exact ⟨b, List.mem_cons_self, List.mem_cons_self⟩
        · obtain ⟨y, hy, hmem⟩ := hleft x hx
          exact ⟨y, List.mem_cons_of_mem _ hy, List.mem_cons_of_mem _ hmem⟩
      · rcases List.mem_cons.1 hy with rfl | hy
        · exact ⟨a, List.mem_cons_self, List.mem_cons_self⟩
        · obtain ⟨x, hx, hmem⟩ := hright y hy
          exact ⟨x, List.mem_cons_of_mem _ hx, List.mem_cons_of_mem _ hmem⟩

namespace Inv

variable {db₀ : Db} {done todo : List DiscoveredCamera}

theorem start : Inv P device db₀ [] ⟨db₀, [], 0, 0⟩ :=
  ⟨rfl, List.nodup_nil, List.nodup_nil, by simp, rfl, fun _ _ => Iff.rfl⟩

/-- A row that was stored into holds a channel. -/
theorem holder (hinv : Inv P device db₀ done p) (hcam : cam ∈ p.db.cameras.rows) (hseen : cam.id ∈ p.seen) :
    ∃ d ∈ done, Holds P device d cam := by
  obtain ⟨d, hd, hzip⟩ := (mem_zip_of_mem hinv.length).2 cam.id hseen
  obtain ⟨x, hx, hid, hholds⟩ := hinv.holds _ hzip
  exact ⟨d, hd, p.db.cameras.eq_of_pk hx hcam hid ▸ hholds⟩

/-- A channel that is new and has tokens of its own finds no row that was stored into. -/
theorem unseen (hinv : Inv P device db₀ done p) (hnamed : ∀ d ∈ done, d.channelId ≠ "")
    (hfresh : ∀ d ∈ done, d.channelId ≠ camera.channelId)
    (hapart : ∀ d ∈ done, d.tokens.Disjoint camera.tokens)
    (hcam : cam ∈ p.db.cameras.rows) (hseen : cam.id ∈ p.seen) :
    cam.device_channel_id ≠ some camera.channelId ∧ cam.shares camera.tokens = false := by
  obtain ⟨d, hd, hholds⟩ := hinv.holder hcam hseen
  refine ⟨fun hchannel => ?_, Bool.eq_false_iff.2 fun hshares => hholds.shares hshares (hapart d hd)⟩
  rw [hholds.channel (hnamed d hd)] at hchannel
  exact hfresh d hd (Option.some.inj hchannel)

theorem fresh (hinv : Inv P device db₀ done p) (hnamed : ∀ d ∈ done, d.channelId ≠ "")
    (hfresh : ∀ d ∈ done, d.channelId ≠ camera.channelId)
    (hapart : ∀ d ∈ done, d.tokens.Disjoint camera.tokens)
    (h : Turn P device p camera p') : p'.seen.Nodup := by
  suffices hnew : ∃ id, p'.seen = p.seen ++ [id] ∧ id ∉ p.seen by
    obtain ⟨id, hseen, hnew⟩ := hnew
    rw [hseen]
    exact List.nodup_append'.2 ⟨hinv.seen, List.nodup_singleton id, by simpa using hnew⟩
  cases h with
  | updated cam hmatch db hrows =>
    obtain ⟨hmem, hwhich⟩ := matching_mem hmatch
    refine ⟨cam.id, rfl, fun hseen => ?_⟩
    obtain ⟨hchannel, hshares⟩ := hinv.unseen hnamed hfresh hapart (mem_listing.1 hmem).1 hseen
    rcases hwhich with heq | ⟨-, heq⟩
    · exact hchannel heq
    · rw [hshares] at heq
      cases heq
  | created hnone cam hid hcam db hrows =>
    refine ⟨cam.id, rfl, fun hseen => ?_⟩
    obtain ⟨d, hd, hzip⟩ := (mem_zip_of_mem hinv.length).2 cam.id hseen
    obtain ⟨x, hx, hxid, -⟩ := hinv.holds _ hzip
    exact hid x hx hxid

theorem step (hinv : Inv P device db₀ done p) (hnamed : ∀ d ∈ done, d.channelId ≠ "")
    (hfresh : ∀ d ∈ done, d.channelId ≠ camera.channelId)
    (hapart : ∀ d ∈ done, d.tokens.Disjoint camera.tokens)
    (h : Turn P device p camera p') : Inv P device db₀ (done ++ [camera]) p' := by
  have hnodup := hinv.fresh hnamed hfresh hapart h
  obtain ⟨cam, hcam, hseen, hholds, hrows, hdevice⟩ := h.effect
  have hkept : ∀ x, x.id ≠ cam.id → (x ∈ p'.db.cameras.rows ↔ x ∈ p.db.cameras.rows) := fun x hx => by
    have hmem := congrArg (x ∈ ·) hrows
    simpa [List.mem_filter, hx] using hmem
  have hnew : cam.id ∉ p.seen := by
    rw [hseen] at hnodup
    simpa using (List.nodup_append'.1 hnodup).2.2
  refine ⟨by simp [hseen, hinv.length], hnodup, ?_, ?_, ?_, fun x hx => ?_⟩
  · rw [List.map_append, List.map_singleton]
    refine List.nodup_append'.2 ⟨hinv.channels, List.nodup_singleton _, ?_⟩
    simpa using hfresh
  · rw [hseen, List.zip_append hinv.length, List.zip_cons_cons, List.zip_nil_left]
    intro d hd
    rcases List.mem_append.1 hd with hd | hd
    · obtain ⟨x, hx, hid, hx'⟩ := hinv.holds d hd
      refine ⟨x, (hkept x fun heq => hnew ?_).2 hx, hid, hx'⟩
      rw [← heq, hid]
      exact (List.of_mem_zip hd).2
    · rw [List.mem_singleton.1 hd]
      exact ⟨cam, hcam, rfl, hholds⟩
  · rw [hseen, filter_seen, filter_seen, ← hinv.rest, List.filter_comm, hrows, List.filter_comm]
  · by_cases hid : x.id = cam.id
    · refine ⟨fun hmem => absurd ?_ hx, fun hmem => absurd (hdevice x ((hinv.others x hx).2 hmem) hid) hx⟩
      rw [p'.db.cameras.eq_of_pk hmem hcam hid]
      exact hholds.1
    · rw [hkept x hid, hinv.others x hx]

/-- What the untaken cameras were is what they are. -/
theorem listing (hinv : Inv P device db₀ done p) :
    (p.db.listCamerasByDevice P device.id).filter (fun cam => cam.id ∉ p.seen) =
      (db₀.listCamerasByDevice P device.id).filter fun cam => cam.id ∉ p.seen := by
  have : Std.Total (Db.rowOrder P) := ⟨fun a b => P.nameOrder_total a.name b.name⟩
  have : IsTrans Camera (Db.rowOrder P) := ⟨fun a b c => P.nameOrder_trans a.name b.name c.name⟩
  unfold Db.listCamerasByDevice
  rw [List.filter_comm, List.filter_insertionSort, hinv.rest, ← List.filter_insertionSort, List.filter_comm]

theorem matching_eq (hinv : Inv P device db₀ done p) (hnamed : ∀ d ∈ done, d.channelId ≠ "")
    (hfresh : ∀ d ∈ done, d.channelId ≠ camera.channelId)
    (hapart : ∀ d ∈ done, d.tokens.Disjoint camera.tokens) :
    matching (p.db.listCamerasByDevice P device.id) camera.channelId camera.tokens =
      matching ((db₀.listCamerasByDevice P device.id).filter fun cam => cam.id ∉ p.seen)
      camera.channelId camera.tokens := by
  have hunseen : ∀ cam ∈ p.db.listCamerasByDevice P device.id, cam.id ∈ p.seen →
      cam.device_channel_id ≠ some camera.channelId ∧ cam.shares camera.tokens = false :=
    fun cam hcam => hinv.unseen hnamed hfresh hapart (mem_listing.1 hcam).1
  rw [← hinv.listing]
  unfold matching
  rw [List.find?_filter, List.find?_filter]
  congr 1
  · refine List.find?_congr fun cam hcam => ?_
    by_cases hseen : cam.id ∈ p.seen
    · simp [(hunseen cam hcam hseen).1]
    · simp [hseen]
  · congr 1
    refine List.find?_congr fun cam hcam => ?_
    by_cases hseen : cam.id ∈ p.seen
    · simp [(hunseen cam hcam hseen).2]
    · simp [hseen]

/-- A channel that was stored already is stored in the same camera again. -/
theorem repeated (hinv : Inv P device db₀ done p) (hnamed : camera.channelId ≠ "") (hd : d ∈ done)
    (heq : d.channelId = camera.channelId) (h : Turn P device p camera p') : ¬ p'.seen.Nodup := by
  obtain ⟨id, hid, hzip⟩ := (mem_zip_of_mem hinv.length).1 d hd
  obtain ⟨x, hx, hxid, hholds⟩ := hinv.holds _ hzip
  have hchannel : x.device_channel_id = some camera.channelId := by rw [← heq, hholds.channel (heq ▸ hnamed)]
  have hlisted : x ∈ p.db.listCamerasByDevice P device.id := mem_listing.2 ⟨hx, hholds.1⟩
  cases h with
  | updated cam hmatch db hrows =>
    obtain ⟨hmem, hwhich⟩ := matching_mem hmatch
    obtain ⟨hcam, hdevice⟩ := mem_listing.1 hmem
    rcases hwhich with hcamc | ⟨hnone, -⟩
    · obtain rfl := eq_of_channel hcam hx hdevice hholds.1 hcamc hchannel
      intro hnodup
      have hdisjoint := (List.nodup_append'.1 hnodup).2.2
      exact hdisjoint (hxid ▸ hid) (List.mem_singleton_self _)
    · exact absurd hchannel (hnone x hlisted)
  | created hnone => exact absurd hchannel (matching_none hnone x hlisted)

end Inv

/-! ### Runs -/

section Runs

variable {db₀ : Db} {done todo found : List DiscoveredCamera}

theorem run_cons {later : List DiscoveredCamera} (hprofiles : camera.profiles ≠ [])
    (hrun : (camera :: later).foldlM (syncCamera P device) p = .ok p') :
    ∃ p₁, Turn P device p camera p₁ ∧ later.foldlM (syncCamera P device) p₁ = .ok p' := by
  rw [List.foldlM_cons] at hrun
  obtain ⟨p₁, hstep, hrun⟩ := bind_eq_ok hrun
  exact ⟨p₁, turn_of_syncCamera hprofiles hstep, hrun⟩

theorem run_seen (hprofiles : ∀ camera ∈ todo, camera.profiles ≠ [])
    (hrun : todo.foldlM (syncCamera P device) p = .ok p') :
    ∃ ids, p'.seen = p.seen ++ ids ∧ ids.length = todo.length := by
  induction todo generalizing p with
  | nil =>
    obtain rfl := Except.ok.inj hrun
    exact ⟨[], (List.append_nil _).symm, rfl⟩
  | cons camera later ih =>
    obtain ⟨p₁, hturn, hrun⟩ := run_cons (hprofiles camera List.mem_cons_self) hrun
    obtain ⟨cam, -, hseen, -⟩ := hturn.effect
    obtain ⟨ids, hids, hlength⟩ := ih (fun d hd => hprofiles d (List.mem_cons_of_mem _ hd)) hrun
    exact ⟨cam.id :: ids, by rw [hids, hseen, List.append_assoc]; rfl, by simp [hlength]⟩

/-- What the discovery promises and the condition adds, for the turns done and to come. -/
structure Legible (found : List DiscoveredCamera) : Prop where
  apart : found.Pairwise fun c d => c.tokens.Disjoint d.tokens
  named : ∀ camera ∈ found, camera.channelId ≠ ""
  profiles : ∀ camera ∈ found, camera.profiles ≠ []

theorem Legible.before {later : List DiscoveredCamera} (h : Legible (done ++ camera :: later)) :
    (∀ d ∈ done, d.channelId ≠ "") ∧ ∀ d ∈ done, d.tokens.Disjoint camera.tokens :=
  ⟨fun d hd => h.named d (List.mem_append_left _ hd),
    fun d hd => (List.pairwise_append.1 h.apart).2.2 d hd camera List.mem_cons_self⟩

/-- Where the cameras stored into, or the channels, are distinct, all is in order. -/
theorem Inv.run (hinv : Inv P device db₀ done p) (hlegible : Legible (done ++ todo))
    (hrun : todo.foldlM (syncCamera P device) p = .ok p')
    (h : p'.seen.Nodup ∨ ((done ++ todo).map (·.channelId)).Nodup) : Inv P device db₀ (done ++ todo) p' := by
  induction todo generalizing done p with
  | nil =>
    obtain rfl := Except.ok.inj hrun
    rwa [List.append_nil]
  | cons camera later ih =>
    have hcamera : camera ∈ done ++ camera :: later := List.mem_append_right _ List.mem_cons_self
    obtain ⟨p₁, hturn, hrun⟩ := run_cons (hlegible.profiles camera hcamera) hrun
    obtain ⟨hnamed, hapart⟩ := hlegible.before
    have hsplit : done ++ camera :: later = done ++ [camera] ++ later := by simp
    have hfresh : ∀ d ∈ done, d.channelId ≠ camera.channelId := by
      intro d hd heq
      rcases h with hnodup | hnodup
      · refine hinv.repeated (hlegible.named camera hcamera) hd heq hturn ?_
        obtain ⟨ids, hids, -⟩ :=
          run_seen (fun d hd => hlegible.profiles d (List.mem_append_right _ (List.mem_cons_of_mem _ hd)))
            hrun
        rw [hids] at hnodup
        exact (List.nodup_append'.1 hnodup).1
      · rw [List.map_append, List.map_cons] at hnodup
        exact (List.nodup_append'.1 hnodup).2.2 (List.mem_map.2 ⟨d, hd, rfl⟩) (heq ▸ List.mem_cons_self)
    rw [hsplit] at hlegible h ⊢
    exact ih (hinv.step hnamed hfresh hapart hturn) hlegible hrun h

variable (P) in
/-- The cameras of the listing end with their channel, where it is one of those to come. -/
def Kept (p' : Progress) (listing : List Camera) (todo : List DiscoveredCamera) : Prop :=
  ∀ cam ∈ listing, ∀ d ∈ todo, cam.device_channel_id = some d.channelId →
    ∃ cam' ∈ p'.db.cameras.rows, cam'.id = cam.id ∧ cam'.device_channel_id = cam.device_channel_id

/-- A camera that a channel takes ends with that channel. -/
theorem kept_taken {listing : List Camera} {later : List DiscoveredCamera}
    (hmatch : matching listing camera.channelId camera.tokens = some cam)
    (hids : ∀ x ∈ listing, x.id = cam.id → x = cam)
    (hchannels : ∀ x ∈ listing, x.device_channel_id = some camera.channelId →
      cam.device_channel_id = some camera.channelId → x = cam)
    (hlater : ∀ d ∈ later, camera.channelId ≠ d.channelId)
    (hend : ∃ x ∈ p'.db.cameras.rows, x.id = cam.id ∧ x.device_channel_id = some camera.channelId) :
    Kept p' listing (camera :: later) ↔
      (cam.device_channel_id = some camera.channelId ∨
        ∀ d ∈ later, cam.device_channel_id ≠ some d.channelId) ∧
        Kept p' (listing.filter fun x => x.id ≠ cam.id) later := by
  obtain ⟨hcam, hwhich⟩ := matching_mem hmatch
  obtain ⟨x, hx, hxid, hxc⟩ := hend
  constructor
  · intro h
    refine ⟨or_iff_not_imp_left.2 fun _ d hd hchannel => ?_, fun y hy d hd =>
      h y (List.mem_of_mem_filter hy) d (List.mem_cons_of_mem _ hd)⟩
    obtain ⟨y, hy, hyid, hyc⟩ := h cam hcam d (List.mem_cons_of_mem _ hd) hchannel
    rw [p'.db.cameras.eq_of_pk hy hx (hyid.trans hxid.symm), hxc, hchannel] at hyc
    exact hlater d hd (Option.some.inj hyc)
  · rintro ⟨hstays, h⟩ y hy d hd hchannel
    by_cases hid : y.id = cam.id
    · obtain rfl := hids y hy hid
      refine ⟨x, hx, hxid, ?_⟩
      rcases List.mem_cons.1 hd with rfl | hd
      · rw [hxc, hchannel]
      · rcases hstays with hown | hnone
        · exact hxc.trans hown.symm
        · exact absurd hchannel (hnone d hd)
    · rcases List.mem_cons.1 hd with rfl | hd
      · rcases hwhich with hown | ⟨hnone, -⟩
        · exact absurd (congrArg Camera.id (hchannels y hy hchannel hown)) hid
        · exact absurd hchannel (hnone y hy)
      · exact h y (List.mem_filter.2 ⟨hy, by simpa using hid⟩) d hd hchannel

/-- The cameras not taken yet keep the channels that are to come exactly where no such camera is
taken for a token. -/
theorem kept_iff (hinv : Inv P device db₀ done p) (hlegible : Legible (done ++ todo))
    (hrun : todo.foldlM (syncCamera P device) p = .ok p') (hfinal : Inv P device db₀ (done ++ todo) p') :
    Kept p' ((db₀.listCamerasByDevice P device.id).filter fun cam => cam.id ∉ p.seen) todo ↔
      Unmoved ((db₀.listCamerasByDevice P device.id).filter fun cam => cam.id ∉ p.seen) todo := by
  induction todo generalizing done p with
  | nil => simp [Unmoved, Kept]
  | cons camera later ih =>
    have hcamera : camera ∈ done ++ camera :: later := List.mem_append_right _ List.mem_cons_self
    have hcameran := hlegible.named camera hcamera
    obtain ⟨p₁, hturn, hrun⟩ := run_cons (hlegible.profiles camera hcamera) hrun
    obtain ⟨hnamed, hapart⟩ := hlegible.before
    have hsplit : done ++ camera :: later = done ++ [camera] ++ later := by simp
    have hdistinct := hfinal.channels
    rw [List.map_append, List.map_cons] at hdistinct
    have hfresh : ∀ d ∈ done, d.channelId ≠ camera.channelId := fun d hd heq =>
      (List.nodup_append'.1 hdistinct).2.2 (List.mem_map.2 ⟨d, hd, rfl⟩) (heq ▸ List.mem_cons_self)
    have hlater : ∀ d ∈ later, camera.channelId ≠ d.channelId := fun d hd heq =>
      (List.nodup_cons.1 (List.nodup_append'.1 hdistinct).2.1).1 (heq ▸ List.mem_map.2 ⟨d, hd, rfl⟩)
    have hmatching := hinv.matching_eq hnamed hfresh hapart
    have hstep := hinv.step hnamed hfresh hapart hturn
    obtain ⟨ids, hids, hidslength⟩ :=
      run_seen (fun d hd => hlegible.profiles d (List.mem_append_right _ (List.mem_cons_of_mem _ hd))) hrun
    have hih := ih hstep (hsplit ▸ hlegible) hrun (hsplit ▸ hfinal)
    -- every row not taken yet is among the untaken rows of the start
    have hrow : ∀ x ∈ (db₀.listCamerasByDevice P device.id).filter (fun cam => cam.id ∉ p.seen),
        x ∈ p.db.cameras.rows := by
      intro x hx
      rw [← hinv.listing] at hx
      exact (mem_listing.1 (List.mem_of_mem_filter hx)).1
    have hdevice : ∀ x ∈ (db₀.listCamerasByDevice P device.id).filter (fun cam => cam.id ∉ p.seen),
        x.device_id = some device.id :=
      fun x hx => (mem_listing.1 (List.mem_of_mem_filter hx)).2
    rw [Unmoved, ← hmatching]
    cases hturn with
    | updated cam hmatch db hrows =>
      simp only [filter_seen] at hih
      rw [hmatch]
      dsimp only
      rw [← hih]
      rw [hmatching] at hmatch
      have hcam := (matching_mem hmatch).1
      refine kept_taken hmatch (fun x hx => p.db.cameras.eq_of_pk (hrow x hx) (hrow cam hcam))
        (fun x hx => eq_of_channel (hrow x hx) (hrow cam hcam) (hdevice x hx) (hdevice cam hcam)) hlater ?_
      obtain ⟨x, hx, hid, hholds⟩ := hfinal.holds (camera, cam.id) (by
        rw [hids, List.append_assoc, List.zip_append hinv.length]
        exact List.mem_append_right _ List.mem_cons_self)
      exact ⟨x, hx, hid, hholds.channel hcameran⟩
    | created hnone cam hid hcam db hrows =>
      simp only [filter_seen] at hih
      rw [List.filter_eq_self.2 fun x hx => by simpa using hid x (hrow x hx)] at hih
      rw [hnone]
      dsimp only
      rw [← hih]
      rw [hmatching] at hnone
      refine ⟨fun h x hx d hd => h x hx d (List.mem_cons_of_mem _ hd), fun h x hx d hd hchannel => ?_⟩
      rcases List.mem_cons.1 hd with rfl | hd
      · exact absurd hchannel (matching_none hnone x hx)
      · exact h x hx d hd hchannel

/-! ### Disabling -/

/-- What the loop does to a row, of which it saw `todo`. -/
def disabledAfter (seen : List String) (todo : List Camera) (x : Camera) : Camera :=
  if ∃ cam ∈ todo, cam.id = x.id ∧ cam.id ∉ seen ∧ cam.enabled then { x with enabled := false } else x

theorem disable_ok {seen : List String} {listing : List Camera} {r r' : Db × Nat}
    (h : listing.foldlM (disableUnseen seen) r = .ok r') :
    r'.1.cameras.rows = r.1.cameras.rows.map (disabledAfter seen listing) ∧
      r'.2 = r.2 + listing.countP fun cam => cam.id ∉ seen ∧ cam.enabled := by
  induction listing generalizing r with
  | nil =>
    obtain rfl := Except.ok.inj h
    exact ⟨(List.map_id'' (fun x => by simp [disabledAfter]) _).symm, rfl⟩
  | cons cam listing ih =>
    rw [List.foldlM_cons] at h
    obtain ⟨r₁, hstep, h⟩ := bind_eq_ok h
    obtain ⟨hrows, hcount⟩ := ih h
    rw [hrows, hcount]
    unfold disableUnseen at hstep
    split_ifs at hstep with hunseen
    · obtain ⟨db, hupdate, hstep⟩ := bind_eq_ok hstep
      obtain rfl := Except.ok.inj hstep
      refine ⟨?_, by rw [List.countP_cons_of_pos (by simpa using hunseen)]; omega⟩
      rw [updateCamera_ok hupdate, List.map_map]
      refine List.map_congr_left fun x _ => ?_
      by_cases hid : x.id = cam.id
      · simp [disabledAfter, hid, hunseen]
      · simp [disabledAfter, hid, Ne.symm hid]
    · obtain rfl := Except.ok.inj hstep
      refine ⟨List.map_congr_left fun x _ => ?_, by rw [List.countP_cons_of_neg (by simpa using hunseen)]⟩
      unfold disabledAfter
      refine if_congr ?_ rfl rfl
      simp only [List.mem_cons, exists_eq_or_imp]
      exact (or_iff_right fun hown => hunseen hown.2).symm

theorem exists_disable (seen : List String) (listing : List Camera) (r : Db × Nat) :
    ∃ r', listing.foldlM (disableUnseen seen) r = .ok r' := by
  induction listing generalizing r with
  | nil => exact ⟨r, rfl⟩
  | cons cam listing ih =>
    obtain ⟨r₁, h₁⟩ : ∃ r₁, disableUnseen seen r cam = .ok r₁ := by
      unfold disableUnseen
      split_ifs with hunseen
      · obtain ⟨db, hdb⟩ : ∃ db, r.1.updateCamera cam.id (fun cam => { cam with enabled := false })
            (fun _ => rfl) (fun _ => rfl) = .ok db :=
          exists_updateCamera fun y hy hid x hx hne => r.1.channels.forall hy hx fun heq => hne (heq ▸ hid)
        exact ⟨(db, r.2 + 1), by rw [hdb]; rfl⟩
      · exact ⟨r, rfl⟩
    obtain ⟨r', h'⟩ := ih r₁
    exact ⟨r', by rw [List.foldlM_cons, h₁]; exact h'⟩

/-- What the end of a sync leaves of a row. -/
def Device.settled (device : Device) (seen : List String) (x : Camera) : Camera :=
  if x.device_id = some device.id ∧ x.id ∉ seen then { x with enabled := false } else x

theorem disabledAfter_listing {seen : List String} (hx : x ∈ db.cameras.rows) :
    disabledAfter seen (db.listCamerasByDevice P device.id) x = device.settled seen x := by
  unfold disabledAfter Device.settled
  by_cases hunseen : x.device_id = some device.id ∧ x.id ∉ seen
  · rw [if_pos hunseen]
    by_cases henabled : x.enabled
    · exact if_pos ⟨x, mem_listing.2 ⟨hx, hunseen.1⟩, rfl, hunseen.2, henabled⟩
    · rw [if_neg]
      · simp only [Bool.not_eq_true] at henabled
        rw [← henabled]
      · rintro ⟨cam, hcam, hid, -, hcame⟩
        rw [db.cameras.eq_of_pk (mem_listing.1 hcam).1 hx hid] at hcame
        exact henabled hcame
  · rw [if_neg hunseen, if_neg]
    rintro ⟨cam, hcam, hid, hcams, -⟩
    obtain ⟨hcam, hdevice⟩ := mem_listing.1 hcam
    obtain rfl := db.cameras.eq_of_pk hcam hx hid
    exact hunseen ⟨hdevice, hcams⟩

/-- A sync is its turns and then the disabling. -/
theorem sync_ok {report : Report} (h : sync P device db found = .ok (report, db')) :
    ∃ p, found.foldlM (syncCamera P device) ⟨db, [], 0, 0⟩ = .ok p ∧ report.seen = p.seen ∧
    report.added = p.added ∧
      report.disabled = ((p.db.listCamerasByDevice P device.id).countP fun cam => cam.id ∉ p.seen ∧
        cam.enabled) ∧ db'.cameras.rows = p.db.cameras.rows.map (device.settled p.seen) := by
  obtain ⟨p, hrun, h⟩ := bind_eq_ok h
  obtain ⟨⟨db₁, disabled⟩, hdisable, h⟩ := bind_eq_ok h
  obtain ⟨rfl, rfl⟩ := Prod.mk.inj (Except.ok.inj h)
  obtain ⟨hrows, hcount⟩ := disable_ok hdisable
  refine ⟨p, hrun, rfl, rfl, by simpa using hcount, ?_⟩
  rw [hrows]
  exact List.map_congr_left fun x hx => disabledAfter_listing hx

theorem exists_sync (hprofiles : ∀ camera ∈ found, camera.profiles ≠ []) (device : Device) (db : Db) :
    ∃ report db', sync P device db found = .ok (report, db') := by
  obtain ⟨p, hrun⟩ : ∃ p, found.foldlM (syncCamera P device) ⟨db, [], 0, 0⟩ = .ok p := exists_run hprofiles _
  obtain ⟨⟨db', disabled⟩, hdisable⟩ := exists_disable p.seen (p.db.listCamerasByDevice P device.id) (p.db, 0)
  refine ⟨⟨p.seen, p.added, p.updated, disabled⟩, db', ?_⟩
  rw [sync, hrun]
  exact congrArg (fun r : Except String (Db × Nat) => r >>= fun (db, disabled) =>
    .ok ((⟨p.seen, p.added, p.updated, disabled⟩ : Report), db)) hdisable

/-! ### The next sync -/

theorem settled_seen {seen : List String} (hseen : cam.id ∈ seen) : device.settled seen cam = cam :=
  if_neg fun hunseen => hunseen.2 hseen

/-- A turn of a channel whose camera holds it changes nothing. -/
theorem turn_held {id : String} (hnamed : camera.channelId ≠ "") (h : Turn P device p camera p')
    (hcam : ∃ cam ∈ p.db.cameras.rows, cam.id = id ∧ Holds P device camera cam) :
    p'.db = p.db ∧ p'.seen = p.seen ++ [id] ∧ p'.added = p.added := by
  obtain ⟨x, hx, rfl, hholds⟩ := hcam
  have hlisted : x ∈ p.db.listCamerasByDevice P device.id := mem_listing.2 ⟨hx, hholds.1⟩
  cases h with
  | updated cam hmatch db hrows =>
    obtain ⟨hmem, hwhich⟩ := matching_mem hmatch
    obtain ⟨hcam, hdevice⟩ := mem_listing.1 hmem
    rcases hwhich with hcamc | ⟨hnone, -⟩
    · obtain rfl := eq_of_channel hcam hx hdevice hholds.1 hcamc (hholds.channel hnamed)
      refine ⟨Db.ext_rows (hrows.trans ?_), rfl, rfl⟩
      refine (List.map_congr_left fun y hy => ?_).trans (List.map_id' _)
      by_cases hid : y.id = cam.id
      · rw [if_pos hid, p.db.cameras.eq_of_pk hy hcam hid, hholds.2]
      · rw [if_neg hid]
    · exact absurd (hholds.channel hnamed) (hnone x hlisted)
  | created hnone => exact absurd (hholds.channel hnamed) (matching_none hnone x hlisted)

theorem run_held {ids : List String} (hlength : found.length = ids.length)
    (hnamed : ∀ camera ∈ found, camera.channelId ≠ "")
    (hprofiles : ∀ camera ∈ found, camera.profiles ≠ [])
    (hheld : ∀ d ∈ found.zip ids, ∃ cam ∈ p.db.cameras.rows, cam.id = d.2 ∧ Holds P device d.1 cam)
    (hrun : found.foldlM (syncCamera P device) p = .ok p') : p'.db = p.db ∧ p'.seen = p.seen ++ ids ∧
    p'.added = p.added := by
  induction found generalizing p ids with
  | nil =>
    obtain rfl := Except.ok.inj hrun
    obtain rfl := List.length_eq_zero_iff.1 hlength.symm
    exact ⟨rfl, (List.append_nil _).symm, rfl⟩
  | cons camera later ih =>
    cases ids with
    | nil => cases hlength
    | cons id ids =>
      obtain ⟨p₁, hturn, hrun⟩ := run_cons (hprofiles camera List.mem_cons_self) hrun
      obtain ⟨hdb, hseen, hadded⟩ :=
        turn_held (hnamed camera List.mem_cons_self) hturn (hheld _ List.mem_cons_self)
      obtain ⟨hdb', hseen', hadded'⟩ :=
        ih (Nat.succ.inj hlength) (fun d hd => hnamed d (List.mem_cons_of_mem _ hd))
        (fun d hd => hprofiles d (List.mem_cons_of_mem _ hd))
        (fun d hd => hdb ▸ hheld d (List.mem_cons_of_mem _ hd)) hrun
      exact ⟨hdb'.trans hdb, by rw [hseen', hseen, List.append_assoc]; rfl, hadded'.trans hadded⟩

/-- Where every channel is held and the device's other cameras are disabled, a sync does nothing. -/
theorem sync_held {ids : List String} (hlength : found.length = ids.length)
    (hnamed : ∀ camera ∈ found, camera.channelId ≠ "")
    (hprofiles : ∀ camera ∈ found, camera.profiles ≠ [])
    (hheld : ∀ d ∈ found.zip ids, ∃ cam ∈ db.cameras.rows, cam.id = d.2 ∧ Holds P device d.1 cam)
    (hdisabled : ∀ cam ∈ db.cameras.rows, cam.device_id = some device.id → cam.id ∉ ids →
      cam.enabled = false) :
    ∃ again, sync P device db found = .ok (again, db) ∧ again.added = 0 ∧ again.disabled = 0 := by
  obtain ⟨again, db', hsync⟩ := exists_sync (P := P) hprofiles device db
  obtain ⟨p, hrun, -, hadded, hcount, hrows⟩ := sync_ok hsync
  obtain ⟨hdb, hseen, hnone⟩ := run_held hlength hnamed hprofiles hheld hrun
  obtain rfl : ids = p.seen := hseen.symm
  have hsame : db' = db := by
    refine Db.ext_rows ((hrows.trans (List.map_congr_left fun x hx => ?_)).trans
      ((List.map_id' _).trans (by rw [hdb])))
    rw [hdb] at hx
    unfold Device.settled
    split_ifs with hunseen
    · have henabled := hdisabled x hx hunseen.1 hunseen.2
      rw [← henabled]
    · rfl
  refine ⟨again, hsame ▸ hsync, hadded.trans hnone, ?_⟩
  rw [hcount, List.countP_eq_zero]
  intro cam hcam
  rw [hdb] at hcam
  obtain ⟨hcam, hdevice⟩ := mem_listing.1 hcam
  by_cases hcams : cam.id ∈ p.seen
  · simp [hcams]
  · simp [hdisabled cam hcam hdevice hcams]

/-! ### Channels without an id -/

theorem named_turn (hnamed : Named device p.db) (h : Turn P device p camera p') : Named device p'.db := by
  obtain ⟨cam, hcam, -, hholds, hrows, -⟩ := h.effect
  intro x hx hdevice hchannel
  by_cases hid : x.id = cam.id
  · rw [p'.db.cameras.eq_of_pk hx hcam hid, ← hholds.2] at hchannel
    exact (Text.truthy_eq_some.1 (show truthy (some camera.channelId) = some "" from hchannel)).2 rfl
  · have hmem : x ∈ p'.db.cameras.rows.filter fun x => x.id ≠ cam.id :=
      List.mem_filter.2 ⟨hx, by simpa using hid⟩
    rw [hrows] at hmem
    exact hnamed x (List.mem_of_mem_filter hmem) hdevice hchannel

theorem named_run (hprofiles : ∀ camera ∈ found, camera.profiles ≠ []) (hnamed : Named device p.db)
    (hrun : found.foldlM (syncCamera P device) p = .ok p') : Named device p'.db ∧ p.added ≤ p'.added := by
  induction found generalizing p with
  | nil =>
    obtain rfl := Except.ok.inj hrun
    exact ⟨hnamed, Nat.le_refl _⟩
  | cons camera later ih =>
    obtain ⟨p₁, hturn, hrun⟩ := run_cons (hprofiles camera List.mem_cons_self) hrun
    obtain ⟨hnamed', hle⟩ := ih (fun d hd => hprofiles d (List.mem_cons_of_mem _ hd))
      (named_turn hnamed hturn) hrun
    exact ⟨hnamed', hturn.added_le.trans hle⟩

theorem tokens_of_unnamed (hempty : camera.channelId = "") : camera.tokens = [] := by
  unfold DiscoveredCamera.channelId channelIdOf at hempty
  split at hempty
  · next token hsource => exact absurd hempty (Text.truthy_eq_some.1 hsource).2
  · split at hempty
    · next token hsource =>
      obtain ⟨stream, -, hstream⟩ := List.exists_of_findSome?_eq_some hsource
      exact absurd hempty (Text.truthy_eq_some.1 hstream).2
    · have hsorted : (channelTokens camera.profiles).insertionSort codeUnitOrder = [] := by
        cases hs : (channelTokens camera.profiles).insertionSort codeUnitOrder with
        | nil => rfl
        | cons token tokens =>
          have hmem : token ∈ channelTokens camera.profiles := by
            rw [← List.mem_insertionSort codeUnitOrder, hs]
            exact List.mem_cons_self
          have htoken : token ≠ "" := by simpa using List.of_mem_filter hmem
          rw [hs] at hempty
          by_cases htokens : tokens = []
          · rw [htokens, String.intercalate_singleton] at hempty
            exact absurd hempty htoken
          · rw [String.intercalate_cons_of_ne_nil htokens] at hempty
            simp [String.append_eq_empty_iff, htoken] at hempty
      have hlength := List.length_insertionSort codeUnitOrder (channelTokens camera.profiles)
      rw [hsorted] at hlength
      exact List.length_eq_zero_iff.1 hlength.symm

/-- A channel without an id gets a new camera every time. -/
theorem added_of_unnamed (hnamed : Named device p.db) (hempty : camera.channelId = "")
    (h : Turn P device p camera p') :
    p'.added = p.added + 1 := by
  cases h with
  | updated cam hmatch =>
    obtain ⟨hmem, hwhich⟩ := matching_mem hmatch
    obtain ⟨hcam, hdevice⟩ := mem_listing.1 hmem
    rcases hwhich with hchannel | ⟨-, hshares⟩
    · exact absurd (hempty ▸ hchannel) (hnamed cam hcam hdevice)
    · rw [tokens_of_unnamed hempty] at hshares
      obtain ⟨stream, -, htoken⟩ := List.any_eq_true.1 hshares
      simp at htoken
  | created => rfl

theorem run_unnamed (hprofiles : ∀ camera ∈ found, camera.profiles ≠ []) (hnamed : Named device p.db)
    (hcamera : camera ∈ found)
    (hempty : camera.channelId = "") (hrun : found.foldlM (syncCamera P device) p = .ok p') :
    p.added < p'.added := by
  induction found generalizing p with
  | nil => cases hcamera
  | cons c later ih =>
    obtain ⟨p₁, hturn, hlater⟩ := run_cons (hprofiles c List.mem_cons_self) hrun
    have hprofiles' : ∀ d ∈ later, d.profiles ≠ [] := fun d hd => hprofiles d (List.mem_cons_of_mem _ hd)
    rcases List.mem_cons.1 hcamera with rfl | hcamera
    · have hadded := added_of_unnamed hnamed hempty hturn
      have hle := (named_run hprofiles' (named_turn hnamed hturn) hlater).2
      omega
    · exact hturn.added_le.trans_lt (ih hprofiles' (named_turn hnamed hturn) hcamera hlater)

/-! ### The condition -/

theorem Discovery.apart (h : Discovery found) : found.Pairwise fun c d => c.tokens.Disjoint d.tokens := by
  refine (List.nodup_flatMap.1 h.tokens).2.imp fun {c d} hdisjoint token hc hd => ?_
  exact hdisjoint (List.mem_of_mem_filter hc) (List.mem_of_mem_filter hd)

theorem listing_start (deviceId : String) :
    (db.listCamerasByDevice P deviceId).filter
    (fun cam => cam.id ∉ ([] : List String)) = db.listCamerasByDevice P deviceId :=
  List.filter_eq_self.2 fun _ _ => by simp

theorem mem_settled {seen : List String}
    (hrows : db'.cameras.rows = db.cameras.rows.map (device.settled seen)) :
    (∃ x ∈ db'.cameras.rows, x.id = cam.id ∧ x.device_channel_id = cam.device_channel_id) ↔
      ∃ x ∈ db.cameras.rows, x.id = cam.id ∧ x.device_channel_id = cam.device_channel_id := by
  have hsettled : ∀ x : Camera, (device.settled seen x).id = x.id ∧
      (device.settled seen x).device_channel_id = x.device_channel_id := by
    intro x
    unfold Device.settled
    split_ifs <;> exact ⟨rfl, rfl⟩
  constructor
  · rintro ⟨x, hx, hid, hchannel⟩
    rw [hrows] at hx
    obtain ⟨y, hy, rfl⟩ := List.mem_map.1 hx
    exact ⟨y, hy, (hsettled y).1.symm.trans hid, (hsettled y).2.symm.trans hchannel⟩
  · rintro ⟨y, hy, hid, hchannel⟩
    exact ⟨device.settled seen y, hrows ▸ List.mem_map_of_mem hy, (hsettled y).1.trans hid,
      (hsettled y).2.trans hchannel⟩

theorem clear_of_keepsApart (hfound : Discovery found) (hnamed : Named device db)
    (h : KeepsApart P device db found) :
    Clear P device db found := by
  obtain ⟨report, db', hsync, -, hnodup, hkept, hdisabled, hothers, -, again, hagain, hadded, -⟩ := h
  obtain ⟨p, hrun, hseen, -, -, hrows⟩ := sync_ok hsync
  have hchannels : ∀ camera ∈ found, camera.channelId ≠ "" := by
    intro camera hcamera hempty
    obtain ⟨p₂, hrun₂, -, hadded₂, -⟩ := sync_ok hagain
    have hnamed' : Named device db' := by
      intro x hx hdevice hchannel
      rw [hrows] at hx
      obtain ⟨y, hy, rfl⟩ := List.mem_map.1 hx
      refine (named_run hfound.profiles hnamed hrun).1 y hy ?_ ?_ <;>
        unfold Device.settled at hdevice hchannel <;>
        split_ifs at hdevice hchannel <;> assumption
    have hlt : 0 < p₂.added := run_unnamed hfound.profiles hnamed' hcamera hempty hrun₂
    omega
  have hlegible : Legible ([] ++ found) := ⟨hfound.apart, hchannels, hfound.profiles⟩
  have hfinal := Inv.start.run hlegible hrun (.inl (hseen ▸ hnodup))
  refine ⟨hchannels, hfinal.channels, ?_⟩
  have hiff := kept_iff Inv.start hlegible hrun hfinal
  rw [listing_start] at hiff
  refine hiff.1 fun cam hcam d hd hchannel => ?_
  obtain ⟨hcam, hdevice⟩ := mem_listing.1 hcam
  exact (mem_settled hrows).1 (hkept cam hcam hdevice d hd hchannel)

theorem keepsApart_of_clear (hfound : Discovery found) (h : Clear P device db found) :
    KeepsApart P device db found := by
  obtain ⟨report, db', hsync⟩ := exists_sync (P := P) hfound.profiles device db
  obtain ⟨p, hrun, hseen, -, -, hrows⟩ := sync_ok hsync
  have hlegible : Legible ([] ++ found) := ⟨hfound.apart, h.named, hfound.profiles⟩
  have hfinal := Inv.start.run hlegible hrun (.inr h.channels)
  rw [List.nil_append] at hfinal
  have hiff := kept_iff Inv.start hlegible hrun hfinal
  rw [listing_start] at hiff
  have hheld : ∀ d ∈ found.zip p.seen, ∃ cam ∈ db'.cameras.rows, cam.id = d.2 ∧ Holds P device d.1 cam := by
    intro d hd
    obtain ⟨cam, hcam, hid, hholds⟩ := hfinal.holds d hd
    refine ⟨cam, ?_, hid, hholds⟩
    rw [hrows]
    exact List.mem_map.2 ⟨cam, hcam, settled_seen (hid ▸ (List.of_mem_zip hd).2)⟩
  have hdisabled : ∀ cam ∈ db'.cameras.rows, cam.device_id = some device.id → cam.id ∉ p.seen →
      cam.enabled = false := by
    intro cam hcam hdevice hunseen
    rw [hrows] at hcam
    obtain ⟨x, -, rfl⟩ := List.mem_map.1 hcam
    unfold Device.settled at hdevice hunseen ⊢
    split_ifs at hdevice hunseen ⊢ with hx
    · rfl
    · exact absurd ⟨hdevice, hunseen⟩ hx
  refine ⟨report, db', hsync, by rw [hseen,
    hfinal.length], hseen ▸ hfinal.seen, ?_, hseen ▸ hdisabled, fun cam hcam => ?_, ?_,
    sync_held hfinal.length h.named hfound.profiles hheld hdisabled⟩
  · intro cam hcam hdevice d hd hchannel
    exact (mem_settled hrows).2 (hiff.2 h.unmoved cam (mem_listing.2 ⟨hcam, hdevice⟩) d hd hchannel)
  · rw [← hfinal.others cam hcam, hrows]
    constructor
    · intro hmem
      obtain ⟨x, hx, rfl⟩ := List.mem_map.1 hmem
      have hother : ¬ (x.device_id = some device.id ∧ x.id ∉ p.seen) := fun hx' => by
        unfold Device.settled at hcam
        rw [if_pos hx'] at hcam
        exact hcam hx'.1
      rwa [Device.settled, if_neg hother]
    · exact fun hmem => List.mem_map.2 ⟨cam, hmem, if_neg fun hunseen => hcam hunseen.1⟩
  · rw [hseen]
    intro d hd
    obtain ⟨cam, hcam, hid, hholds⟩ := hheld d hd
    exact ⟨cam, hcam, hid, hholds.streams⟩

/-- A sync keeps channels apart exactly where their ids are distinct and no channel takes the camera
of one still to come. -/
theorem keeps_apart_iff (hfound : Discovery found) (hnamed : Named device db) :
    KeepsApart P device db found ↔ Clear P device db found :=
  ⟨clear_of_keepsApart hfound hnamed, keepsApart_of_clear hfound⟩

end Runs

namespace Renumbered

theorem unitsLe_total : ∀ s t : List Nat, unitsLe s t ∨ unitsLe t s
  | [], _ => .inl rfl
  | _ :: _, [] => .inr rfl
  | a :: s, b :: t => by
    rcases Nat.lt_trichotomy a b with hlt | rfl | hlt
    · exact .inl (by simp [unitsLe, hlt])
    · simpa [unitsLe] using unitsLe_total s t
    · exact .inr (by simp [unitsLe, hlt])

theorem unitsLe_trans : ∀ s t u : List Nat, unitsLe s t → unitsLe t u → unitsLe s u
  | [], _, _, _, _ => rfl
  | _ :: _, [], _, hst, _ => by cases hst
  | _ :: _, _ :: _, [], _, htu => by cases htu
  | a :: s, b :: t, c :: u, hst, htu => by
    simp only [unitsLe, Bool.or_eq_true, Bool.and_eq_true, decide_eq_true_eq] at hst htu ⊢
    rcases hst with hab | ⟨rfl, hst⟩
    · rcases htu with hbc | ⟨rfl, -⟩
      · exact .inl (hab.trans hbc)
      · exact .inl hab
    · rcases htu with hac | ⟨rfl, htu⟩
      · exact .inl hac
      · exact .inr ⟨rfl, unitsLe_trans s t u hst htu⟩

/-- An id longer than those in use; names in the order of their code units; URLs without credentials. -/
def platform : Platform where
  uuidv7 used := String.ofList (List.replicate ((used.map String.length).sum + 1) '0')
  uuidv7_fresh := by
    intro used hused
    have hle := List.le_sum_of_mem (List.mem_map_of_mem (f := String.length) hused)
    simp only [String.length_ofList, List.length_replicate] at hle
    omega
  nameOrder a b := unitsLe (codeUnits a) (codeUnits b)
  nameOrder_total a b := unitsLe_total _ _
  nameOrder_trans a b c := unitsLe_trans _ _ _
  stripRtspCredentials raw := if raw = "" then none else some raw

def recorder : Device := ⟨"recorder", "10.0.0.5", 80, some "admin", none⟩

def channel (source token : String) : DiscoveredCamera :=
  ⟨"Recorder " ++ source, some source,
    [⟨"Profile", token, some source, some "H264", some (.finite 1920), some (.finite 1080), none,
      "rtsp://10.0.0.5/1", .main⟩]⟩

def nothing : Db := ⟨Table.empty, List.Pairwise.nil⟩

/-- What a first sync stores of channel 1. -/
def front : Camera :=
  ⟨"0", some "recorder", some "1", "Recorder 1", "onvif", none, some "10.0.0.5", some 80,
    some "admin", some "", true,
    [⟨.main, "Profile", "rtsp://10.0.0.5/1", some "p1", some 1920, some 1080, some "H264", none, true⟩]⟩

def stored : Db := ⟨⟨[front], by decide, by decide⟩, by decide⟩

/-- A new channel listed before the stored one leaves it its camera. -/
theorem keepsApart_stored : KeepsApart platform recorder stored [channel "9" "p9", channel "1" "p1"] := by
  refine (keeps_apart_iff ⟨by decide, by decide, by decide⟩ (by simp [Named, stored, front])).2
    ⟨by decide, by decide, ?_⟩
  have hlisting : stored.listCamerasByDevice platform recorder.id = [front] := rfl
  have hnone : matching [front] (channel "9" "p9").channelId (channel "9" "p9").tokens = none := by decide
  have hown : matching [front] (channel "1" "p1").channelId (channel "1" "p1").tokens = some front := by
    decide
  rw [hlisting]
  simp [Unmoved, hnone, hown]

/-- The recorder gives the profile of its channel 1 to a new channel 9, which then takes the camera
of channel 1. -/
theorem not_keepsApart :
    sync platform recorder nothing [channel "1" "p1"] = .ok (⟨["0"], 1, 0, 0⟩, stored) ∧
      Discovery [channel "9" "p1", channel "1" "p5"] ∧
      ¬ KeepsApart platform recorder stored [channel "9" "p1", channel "1" "p5"] := by
  have hfound : Discovery [channel "9" "p1", channel "1" "p5"] := ⟨by decide, by decide, by decide⟩
  refine ⟨rfl, hfound, fun h => ?_⟩
  have hunmoved := (clear_of_keepsApart hfound (by simp [Named, stored, front]) h).unmoved
  rcases hunmoved.1 with howned | hlater
  · exact absurd howned (by decide)
  · exact hlater (channel "1" "p5") List.mem_cons_self (by decide)

end Renumbered

end DeviceSync
