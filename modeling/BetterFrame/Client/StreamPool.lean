import BetterFrame.Client.KioskBundle

/-!
# Which stream a pooled pipeline plays

`ensure_warm` and `rewarm_hot_cameras` of `ui.rs`: the pool has one pipeline for a camera and a
badge, and what a tile is given is decided by the badge that `pick_stream` returns.
-/

namespace StreamPool

/-- A camera's id and a badge. -/
abbrev PoolKey := String × Char

/-- The URI of the pipeline that the pool holds for a key. -/
abbrev Pool := PoolKey → Option String

/-- One call of `ensure_warm` for a camera; `creates` is that `create_camera_pipeline` succeeds. -/
structure Call where
  selector : Option String
  area_fraction : ℚ
  creates : Bool

variable (camera : BundleCamera)

/-- The pool after the call, and the URI and badge of the pipeline that is returned. -/
def ensure_warm (pool : Pool) (call : Call) : Pool × Option (String × Char) :=
  match camera.pick_stream call.selector call.area_fraction with
  | none => (pool, none)
  | some (uri, badge) =>
    match pool (camera.id, badge) with
    | some cached => (pool, some (cached, badge))
    | none =>
      if call.creates then (Function.update pool (camera.id, badge) (some uri), some (uri, badge))
      else (pool, none)

/-- The pool after a sequence of calls. -/
def warmed (calls : List Call) : Pool :=
  calls.foldl (fun pool call => (ensure_warm camera pool call).1) fun _ => none

/-- The selector of `rewarm_hot_cameras`, which goes with area 0. -/
def rewarmSelector (badge : Char) : Option String :=
  match badge with
  | 'M' => some "main"
  | 'S' => some "sub"
  | _ => none

/-- Choices with one badge have one URI. -/
def OneStream : Prop :=
  ∀ selector area_fraction selector' area_fraction' uri uri' badge,
    camera.pick_stream selector area_fraction = some (uri, badge) →
    camera.pick_stream selector' area_fraction' = some (uri', badge) → uri = uri'

/-- A badge's stream is chosen again when it is rewarmed. -/
def Rewarms : Prop :=
  ∀ selector area_fraction uri badge, camera.pick_stream selector area_fraction = some (uri, badge) →
    camera.pick_stream (rewarmSelector badge) 0 = some (uri, badge)

/-- Whatever calls came before, a tile is given the stream it asked for. -/
def PlaysAsked : Prop :=
  ∀ calls call uri badge, (ensure_warm camera (warmed camera calls) call).2 = some (uri, badge) →
    camera.pick_stream call.selector call.area_fraction = some (uri, badge)

/-- There is a main stream, or no substream, or the first substream has the URI of the first stream. -/
def Told : Prop :=
  camera.hasRole "main" ∨ camera.hasRole "sub" = false ∨
    (camera.withRole "sub").map (·.rtsp_uri) = camera.streams.head?.map (·.rtsp_uri)

/-! ### The two choices -/

/-- What `pick_stream` returns for a preferred role. -/
def ofRole (role : String) : Option (String × Char) :=
  let stream := ((camera.withRole role).or (camera.withRole "main")).or camera.streams.head?
  let badge := if !(camera.hasRole "main" && camera.hasRole "sub") then ' '
    else if stream.map (·.role) = some "main" then 'M' else 'S'
  ((stream.map (·.rtsp_uri)).or camera.rtsp_url).map fun uri => (uri, badge)

variable {camera} {uri : String} {badge : Char}

theorem rolePreference_cases (selector : Option String) (area_fraction : ℚ) :
    BundleCamera.rolePreference selector area_fraction = "main" ∨
    BundleCamera.rolePreference selector area_fraction = "sub" := by
  unfold BundleCamera.rolePreference
  split
  · exact .inl rfl
  · exact .inr rfl
  · split
    · exact .inl rfl
    · exact .inr rfl

/-- `pick_stream` returns what it returns for one of the two roles. -/
theorem pick_stream_cases (selector : Option String) (area_fraction : ℚ) :
    camera.pick_stream selector area_fraction = ofRole camera "main" ∨
    camera.pick_stream selector area_fraction = ofRole camera "sub" := by
  rw [show camera.pick_stream selector area_fraction = ofRole camera
    (BundleCamera.rolePreference selector area_fraction) from rfl]
  rcases rolePreference_cases selector area_fraction with h | h <;> rw [h]
  · exact .inl rfl
  · exact .inr rfl

theorem pick_stream_main : camera.pick_stream (some "main") 0 = ofRole camera "main" := rfl

theorem pick_stream_sub : camera.pick_stream (some "sub") 0 = ofRole camera "sub" := rfl

/-- Area 0 is no large area. -/
theorem pick_stream_none : camera.pick_stream none 0 = ofRole camera "sub" := by
  have hsmall : ¬ BundleCamera.largeArea ≤ 0 := by decide +kernel
  show ofRole camera (if BundleCamera.largeArea ≤ 0 then "main" else "sub") = _
  rw [if_neg hsmall]

theorem withRole_eq_none {role : String} : camera.withRole role = none ↔ camera.hasRole role = false := by
  simp [BundleCamera.withRole, BundleCamera.hasRole]

theorem role_of_withRole {role : String} {stream : BundleStream} (h : camera.withRole role = some stream) :
    stream.role = role := by
  simpa using List.find?_some h

theorem hasRole_of_withRole {role : String} {stream : BundleStream}
    (h : camera.withRole role = some stream) : camera.hasRole role := by
  rw [← Bool.not_eq_false, ← withRole_eq_none, h]
  exact Option.some_ne_none _

theorem withRole_of_hasRole {role : String} (h : camera.hasRole role) :
    ∃ stream, camera.withRole role = some stream := by
  refine Option.ne_none_iff_exists'.1 fun hnone => ?_
  rw [withRole_eq_none.1 hnone] at h
  cases h

/-- A camera with main and sub streams has a badge for each. -/
theorem ofRole_both {main sub : BundleStream} (hmain : camera.withRole "main" = some main)
    (hsub : camera.withRole "sub" = some sub) :
    ofRole camera "main" = some (main.rtsp_uri, 'M') ∧ ofRole camera "sub" = some (sub.rtsp_uri, 'S') := by
  have hne : sub.role ≠ "main" := by simp [role_of_withRole hsub]
  constructor
  · simp [ofRole, hmain, hasRole_of_withRole hmain, hasRole_of_withRole hsub, role_of_withRole hmain]
  · simp [ofRole, hsub, hasRole_of_withRole hmain, hasRole_of_withRole hsub, hne]

/-- Another camera has one badge. -/
theorem ofRole_single (h : ¬ (camera.hasRole "main" ∧ camera.hasRole "sub")) (role : String) :
    ofRole camera role =
      (((((camera.withRole role).or (camera.withRole "main")).or camera.streams.head?).map (·.rtsp_uri)).or
        camera.rtsp_url).map
        fun uri => (uri, ' ') := by
  have hsingle : (!(camera.hasRole "main" && camera.hasRole "sub")) = true := by
    simpa only [Bool.not_eq_true', Bool.and_eq_false_iff, not_and_or, Bool.not_eq_true] using h
  simp only [ofRole, hsingle, if_true]

theorem ofRole_agree (h : ¬ (camera.hasRole "main" ∧ camera.hasRole "sub")) :
    ofRole camera "main" = ofRole camera "sub" ↔ Told camera := by
  rw [ofRole_single h, ofRole_single h]
  cases hmain : camera.withRole "main" with
  | some main =>
    have hsub : camera.withRole "sub" = none :=
      withRole_eq_none.2 (Bool.eq_false_iff.2 fun hsub => h ⟨hasRole_of_withRole hmain, hsub⟩)
    rw [hsub]
    exact iff_of_true rfl (.inl (hasRole_of_withRole hmain))
  | none =>
    have hnot : ¬ camera.hasRole "main" := by simp [withRole_eq_none.1 hmain]
    cases hsub : camera.withRole "sub" with
    | none => exact iff_of_true rfl (.inr (.inl (withRole_eq_none.1 hsub)))
    | some sub =>
      obtain ⟨first, rest, hstreams⟩ : ∃ first rest, camera.streams = first :: rest :=
        List.exists_cons_of_ne_nil fun hnil => by simp [BundleCamera.withRole, hnil] at hsub
      have hhas := hasRole_of_withRole hsub
      simp [Told, hnot, hhas, hsub, hstreams, eq_comm]

/-! ### Pipelines -/

/-- A call leaves the pool or adds the pipeline it chose. -/
theorem ensure_warm_cases (pool : Pool) (call : Call) :
    (ensure_warm camera pool call).1 = pool ∨
    ∃ uri badge, camera.pick_stream call.selector call.area_fraction = some (uri, badge) ∧
      (ensure_warm camera pool call).1 = Function.update pool (camera.id, badge) (some uri) := by
  unfold ensure_warm
  split
  · exact .inl rfl
  · next uri badge hpick =>
    split
    · exact .inl rfl
    · split
      · exact .inr ⟨uri, badge, hpick, rfl⟩
      · exact .inl rfl

/-- A pipeline in the pool has a URI that was chosen with its badge. -/
theorem chosen_of_warmed {calls : List Call} (h : warmed camera calls (camera.id, badge) = some uri) :
    ∃ selector area_fraction, camera.pick_stream selector area_fraction = some (uri, badge) := by
  suffices hall : ∀ pool : Pool, (∀ uri badge, pool (camera.id, badge) = some uri →
      ∃ selector area_fraction, camera.pick_stream selector area_fraction = some (uri, badge)) →
      ∀ uri badge,
        calls.foldl (fun pool call => (ensure_warm camera pool call).1) pool (camera.id, badge) = some uri →
        ∃ selector area_fraction, camera.pick_stream selector area_fraction = some (uri, badge) from
    hall _ (fun _ _ h => absurd h (Option.some_ne_none _).symm) _ _ h
  clear h
  induction calls with
  | nil => exact fun pool hpool => hpool
  | cons call calls ih =>
    intro pool hpool
    refine ih _ fun uri badge huri => ?_
    change (ensure_warm camera pool call).1 (camera.id, badge) = some uri at huri
    rcases ensure_warm_cases pool call with hsame | ⟨picked, pickedBadge, hpick, hadded⟩
    · exact hpool uri badge (hsame ▸ huri)
    · rw [hadded] at huri
      by_cases hb : badge = pickedBadge
      · subst hb
        rw [Function.update_self] at huri
        exact ⟨_, _, hpick.trans (by rw [Option.some.inj huri])⟩
      · rw [Function.update_of_ne fun h => hb (Prod.mk.inj h).2] at huri
        exact hpool uri badge huri

/-- A first call for a camera plays what it asked for. -/
theorem ensure_warm_empty {selector : Option String} {area_fraction : ℚ}
    (h : camera.pick_stream selector area_fraction = some (uri, badge)) :
    warmed camera [⟨selector, area_fraction, true⟩] (camera.id, badge) = some uri := by
  simp [warmed, ensure_warm, h]

theorem ensure_warm_cached {pool : Pool} (call : Call) {cached : String}
    (h : camera.pick_stream call.selector call.area_fraction = some (uri, badge))
    (hcached : pool (camera.id, badge) = some cached) :
    ensure_warm camera pool call = (pool, some (cached, badge)) := by
  simp [ensure_warm, h, hcached]

theorem playsAsked_iff : PlaysAsked camera ↔ OneStream camera := by
  constructor
  · intro hplays selector area_fraction selector' area_fraction' uri uri' badge hpick hpick'
    have hgiven := ensure_warm_cached ⟨selector', area_fraction', true⟩ hpick' (ensure_warm_empty hpick)
    have hasked := hplays _ ⟨selector', area_fraction', true⟩ uri badge (congrArg Prod.snd hgiven)
    exact (Prod.mk.inj (Option.some.inj (hasked.symm.trans hpick'))).1
  · intro hone calls call uri badge hgiven
    unfold ensure_warm at hgiven
    split at hgiven
    · cases hgiven
    · next picked pickedBadge hpick =>
      split at hgiven
      · next cached hcached =>
        obtain ⟨rfl, rfl⟩ := Prod.mk.inj (Option.some.inj hgiven)
        obtain ⟨selector, area_fraction, hchosen⟩ := chosen_of_warmed hcached
        rw [hpick, hone _ _ _ _ _ _ _ hpick hchosen]
      · split at hgiven
        · exact hpick.trans hgiven
        · cases hgiven

theorem oneStream_iff : OneStream camera ↔ Told camera := by
  by_cases hboth : camera.hasRole "main" ∧ camera.hasRole "sub"
  · obtain ⟨main, hmain⟩ := withRole_of_hasRole hboth.1
    obtain ⟨sub, hsub⟩ := withRole_of_hasRole hboth.2
    obtain ⟨hofMain, hofSub⟩ := ofRole_both hmain hsub
    refine iff_of_true (fun selector area_fraction selector' area_fraction' uri uri' badge hpick hpick' =>
      ?_) (.inl hboth.1)
    have hpair : ∀ selector area_fraction uri badge,
      camera.pick_stream selector area_fraction = some (uri, badge) →
        (uri, badge) = (main.rtsp_uri, 'M') ∨ (uri, badge) = (sub.rtsp_uri, 'S') := by
      intro selector area_fraction uri badge hpick
      rcases pick_stream_cases selector area_fraction with h | h
      · exact .inl (Option.some.inj (hpick.symm.trans (h.trans hofMain)))
      · exact .inr (Option.some.inj (hpick.symm.trans (h.trans hofSub)))
    rcases hpair _ _ _ _ hpick with h | h <;> rcases hpair _ _ _ _ hpick' with h' | h'
    all_goals
      obtain ⟨rfl, rfl⟩ := Prod.mk.inj h
      obtain ⟨rfl, hb⟩ := Prod.mk.inj h'
      first | rfl | cases hb
  · rw [← ofRole_agree hboth]
    have hbadge : ∀ role uri badge, ofRole camera role = some (uri, badge) → badge = ' ' := by
      intro role uri badge h
      rw [ofRole_single hboth] at h
      obtain ⟨_, -, heq⟩ := Option.map_eq_some_iff.1 h
      exact (Prod.mk.inj heq).2.symm
    constructor
    · intro hone
      have hsome : (ofRole camera "main").isSome = (ofRole camera "sub").isSome := by
        rw [ofRole_single hboth, ofRole_single hboth]
        cases hstreams : camera.streams with
        | nil => simp [BundleCamera.withRole, hstreams]
        | cons first rest => simp
      cases hmain : ofRole camera "main" with
      | none =>
        rw [hmain] at hsome
        exact (Option.isNone_iff_eq_none.1 (by simpa using hsome.symm)).symm
      | some main =>
        obtain ⟨sub, hsub⟩ := Option.isSome_iff_exists.1 (hsome.symm.trans (by rw [hmain]; rfl))
        obtain ⟨uri, badge⟩ := main
        obtain ⟨uri', badge'⟩ := sub
        obtain rfl := hbadge _ _ _ hmain
        obtain rfl := hbadge _ _ _ hsub
        rw [hsub, hone (some "main") 0 (some "sub") 0 uri uri' ' ' (pick_stream_main.trans hmain)
          (pick_stream_sub.trans hsub)]
    · intro hsame selector area_fraction selector' area_fraction' uri uri' badge hpick hpick'
      have hany : ∀ selector area_fraction, camera.pick_stream selector area_fraction = ofRole
          camera "sub" := fun selector area_fraction =>
        (pick_stream_cases selector area_fraction).elim (fun h => h.trans hsame) id
      rw [hany] at hpick hpick'
      exact (Prod.mk.inj (Option.some.inj (hpick.symm.trans hpick'))).1

theorem rewarms_iff : Rewarms camera ↔ Told camera := by
  by_cases hboth : camera.hasRole "main" ∧ camera.hasRole "sub"
  · obtain ⟨main, hmain⟩ := withRole_of_hasRole hboth.1
    obtain ⟨sub, hsub⟩ := withRole_of_hasRole hboth.2
    obtain ⟨hofMain, hofSub⟩ := ofRole_both hmain hsub
    refine iff_of_true (fun selector area_fraction uri badge hpick => ?_) (.inl hboth.1)
    rcases pick_stream_cases selector area_fraction with h | h
    · obtain ⟨rfl, rfl⟩ := Prod.mk.inj (Option.some.inj (hpick.symm.trans (h.trans hofMain)))
      exact pick_stream_main.trans hofMain
    · obtain ⟨rfl, rfl⟩ := Prod.mk.inj (Option.some.inj (hpick.symm.trans (h.trans hofSub)))
      exact pick_stream_sub.trans hofSub
  · rw [← ofRole_agree hboth]
    have hagain : ∀ role uri badge, ofRole camera role = some (uri, badge) →
        camera.pick_stream (rewarmSelector badge) 0 = ofRole camera "sub" := by
      intro role uri badge h
      rw [ofRole_single hboth] at h
      obtain ⟨_, -, heq⟩ := Option.map_eq_some_iff.1 h
      obtain ⟨-, rfl⟩ := Prod.mk.inj heq
      exact pick_stream_none
    constructor
    · intro hrewarms
      cases hmain : ofRole camera "main" with
      | some main =>
        exact (hrewarms (some "main") 0 main.1 main.2 hmain).symm.trans
          (hagain "main" main.1 main.2 hmain)
      | none =>
        cases hsub : ofRole camera "sub" with
        | none => rfl
        | some sub =>
          rw [ofRole_single hboth] at hmain hsub
          cases hstreams : camera.streams with
          | nil => simp_all [BundleCamera.withRole]
          | cons first rest => simp [hstreams] at hmain
    · intro hsame selector area_fraction uri badge hpick
      rcases pick_stream_cases selector area_fraction with h | h
      · rw [hagain "main" uri badge (h.symm.trans hpick), ← hsame, ← h, hpick]
      · rw [hagain "sub" uri badge (h.symm.trans hpick), ← h, hpick]

/-- A badge stands for one stream, rewarming chooses it again and cached pipelines play what was
asked for, each exactly where the camera has a main stream or no substream, or its first substream
and its first stream have one URI. -/
theorem badge_tells_stream (camera : BundleCamera) :
    (OneStream camera ↔ Told camera) ∧ (Rewarms camera ↔ Told camera) ∧ (PlaysAsked camera ↔ Told camera) :=
  ⟨oneStream_iff, rewarms_iff, playsAsked_iff.trans oneStream_iff⟩

/-- A stream without a role and a substream, and no main stream. -/
def unmarkedAndSub : BundleCamera where
  id := "c1"
  name := "Gate"
  enabled := true
  simple_vms_managed := false
  recording_config := .null
  rtsp_url := none
  streams := [⟨"other", "rtsp://nvr/first"⟩, ⟨"sub", "rtsp://nvr/second"⟩]
  playback_username := none
  playback_password_encrypted := none
  onvif_password_encrypted := none

theorem unmarkedAndSub_mixed : ¬ OneStream unmarkedAndSub ∧ ¬ Rewarms unmarkedAndSub ∧
    ¬ PlaysAsked unmarkedAndSub := by
  have hmain : unmarkedAndSub.pick_stream (some "main") 0 = some ("rtsp://nvr/first", ' ') := by decide
  have hsub : unmarkedAndSub.pick_stream (some "sub") 0 = some ("rtsp://nvr/second", ' ') := by decide
  have hone : ¬ OneStream unmarkedAndSub := fun h => absurd (h _ _ _ _ _ _ _ hmain hsub) (by decide)
  refine ⟨hone, fun h => ?_, fun h => hone (playsAsked_iff.1 h)⟩
  have hagain := (h _ _ _ _ hmain).symm.trans (pick_stream_none.trans hsub)
  exact absurd hagain (by decide)

end StreamPool
