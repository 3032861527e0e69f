import BetterFrame.Lib.Run
import BetterFrame.Client.Firmware

/-!
# The way back from an app update

`WayBack` is what a display without an attendant needs: the installed executable is one that was
confirmed, or the marker is there and the backup is the executable confirmed last. A pass keeps it when
it is started by the executable confirmed last (`Proven`); a pass of an unconfirmed candidate stashes
that candidate, and then nothing is left to go back to.
-/

namespace Firmware

open Crash UpdateDownload UpdateGuard

/-- What is in place was confirmed, or the marker is there and the app confirmed last is saved. -/
def WayBack (s : World) : Prop :=
  (∃ bytes ∈ s.confirmed, s.bin = .whole bytes) ∨
    (s.marker.isSome ∧ ∃ bytes, s.confirmed.head? = some bytes ∧ s.prev = some (.whole bytes))

/-- The answer to a check that starts a pass. -/
def Action.check : Action → Option CheckResponse
  | .worker check .. => some check
  | .preboot check _ => some check
  | _ => none

/-- An upgrade is taken up only by the binary that was confirmed last, and its version is not the text of
the running one but for leading `v`s. -/
def Proven (P : Platform) (s : World) (a : Action) : Bool :=
  match s.running, a.check with
  | some self, some check =>
    (newer_update P self check).all fun info =>
      s.confirmed.head? = some self && plainVersion info.version ≠ plainVersion (P.kiosk_app_version self)
  | _, _ => true

/-- What a crash may leave behind. -/
structure Safe (s : World) : Prop where
  bin : s.marker = none → ∃ bytes, s.confirmed.head? = some bytes ∧ s.bin = .whole bytes
  prev : s.marker ≠ none → ∃ bytes, s.confirmed.head? = some bytes ∧ s.prev = some (.whole bytes)

/-- `Safe`, and what runs is what is in place. -/
structure Inv (s : World) : Prop extends Safe s where
  running : ∀ bytes, s.running = some bytes → s.bin = .whole bytes

/-- The executables, the marker and the process are as they were. -/
structure Frame (s t : World) : Prop where
  bin : t.bin = s.bin
  prev : t.prev = s.prev
  marker : t.marker = s.marker
  running : t.running = s.running
  confirmed : t.confirmed = s.confirmed

section Basics

variable {s t u : World}

theorem Frame.refl (s : World) : Frame s s := ⟨rfl, rfl, rfl, rfl, rfl⟩

theorem Frame.trans (h : Frame s t) (h' : Frame t u) : Frame s u :=
  ⟨h'.bin.trans h.bin, h'.prev.trans h.prev, h'.marker.trans h.marker, h'.running.trans h.running,
    h'.confirmed.trans h.confirmed⟩

theorem Safe.frame (h : Safe s) (hf : Frame s t) : Safe t := by
  obtain ⟨hb, hp, hm, -, hc⟩ := hf
  exact ⟨by rw [hm, hc, hb]; exact h.bin, by rw [hm, hc, hp]; exact h.prev⟩

theorem Inv.frame (h : Inv s) (hf : Frame s t) : Inv t :=
  ⟨h.toSafe.frame hf, by rw [hf.running, hf.bin]; exact h.running⟩

theorem Safe.wayBack (h : Safe s) : WayBack s := by
  by_cases hm : s.marker = none
  · obtain ⟨bytes, hc, hb⟩ := h.bin hm
    exact .inl ⟨bytes, List.mem_of_mem_head? hc, hb⟩
  · exact .inr ⟨Option.isSome_iff_ne_none.2 hm, h.prev hm⟩

/-- A process that has died. -/
theorem Safe.dead (h : Safe s) : Inv { s with running := none } :=
  ⟨⟨h.bin, h.prev⟩, fun _ h => by cases h⟩

end Basics

/-- Nothing is changed but that the download may be gone and time has passed. -/
structure Still (s t : World) : Prop where
  bin : t.bin = s.bin
  prev : t.prev = s.prev
  new : t.new = s.new ∨ t.new = none
  marker : t.marker = s.marker
  attempts : t.attempts = s.attempts
  guard : t.guard = s.guard
  running : t.running = s.running
  confirmed : t.confirmed = s.confirmed
  moments : ∀ o ∈ t.outside :: t.script, o ∈ s.outside :: s.script

/-- The body that the server sends for an update at the moment `o` is `bytes`. -/
def Sends (cancelable : Bool) (key : Option String) (info : UpdateInfo) (o : Outside) (bytes : Bytes) :
    Prop :=
  ∃ response, get o.net key info.download_url 0 = .ok response ∧
    read_firmware_body cancelable info.size_bytes response.body = .ok bytes

/-! ### The download -/

section Download

variable {P : Platform} {self : Bytes} {info : UpdateInfo} {cancelable : Bool} {key : Option String}
  {s t u : World}
  {ε : Type}

theorem Still.refl (s : World) : Still s s := ⟨rfl, rfl, .inl rfl, rfl, rfl, rfl, rfl, rfl, fun _ h => h⟩

theorem Still.trans (h : Still s t) (h' : Still t u) : Still s u := by
  refine ⟨h'.bin.trans h.bin, h'.prev.trans h.prev, ?_, h'.marker.trans h.marker,
    h'.attempts.trans h.attempts,
    h'.guard.trans h.guard, h'.running.trans h.running, h'.confirmed.trans h.confirmed,
    fun o ho => h.moments o (h'.moments o ho)⟩
  rcases h'.new with hn | hn
  · rw [hn]
    exact h.new
  · exact .inr hn

theorem Still.frame (h : Still s t) : Frame s t := ⟨h.bin, h.prev, h.marker, h.running, h.confirmed⟩

theorem wp_moment {C : World → Prop} {Q : Outside → World → Prop} {E : ε → World → Prop}
    (hQ : ∀ o t, Still s t → o ∈ s.outside :: s.script → Q o t) (hC : C s) : wp C look Q E s := by
  refine Crash.wp_look (hQ _ _ (.refl s) (List.mem_cons_self ..)) (fun o script hs => ?_) hC
  refine hQ _ _ ⟨rfl, rfl, .inl rfl, rfl, rfl, rfl, rfl, rfl, fun o' ho => ?_⟩ ?_ <;> rw [hs]
  · exact List.mem_cons_of_mem _ ho
  · exact List.mem_cons_of_mem _ (List.mem_cons_self ..)

theorem wp_look {C : World → Prop} {Q : Outside → World → Prop} {E : ε → World → Prop}
    (hQ : ∀ o t, Still s t → Q o t) (hC : C s) : wp C look Q E s :=
  wp_moment (fun o t ht _ => hQ o t ht) hC

theorem wp_lift {α : Type} {r : Except String α} {C : World → Prop} {Q : α → World → Prop}
    {E : String → World → Prop}
    (hQ : ∀ a, r = .ok a → Q a s) (hE : ∀ e, r = .error e → E e s) : wp C (lift r) Q E s := by
  rcases r with e | a
  · exact wp_throw (hE e rfl)
  · exact wp_pure (hQ a rfl)

theorem cleanupCanceled_wp {E : String → World → Prop} :
    wp (Still s) (cleanupCanceled cancelable) (fun _ => Still s) E s := by
  refine wp_bind (wp_look (fun o t ht => ?_) (.refl s))
  split
  · have hremoved : Still s { t with new := none } :=
      ht.trans ⟨rfl, rfl, .inr rfl, rfl, rfl, rfl, rfl, rfl, fun _ h => h⟩
    exact wp_bind (wp_ignore (wp_write (wp_pure hremoved) (wp_pure ht) ht))
  · exact wp_pure ht

theorem checkCancel_wp :
    wp (Still s) (checkCancel cancelable) (fun _ => Still s)
    (fun e t => Still s t ∧ is_deferred e = false) s := by
  refine wp_bind (cleanupCanceled_wp.mono (fun canceled t ht => ?_) (fun _ _ h => h) fun _ h => h)
  split
  · exact wp_throw ⟨ht, by decide⟩
  · exact wp_pure ht

theorem downloadBody_wp :
    wp (Still s) (downloadBody cancelable key info)
      (fun bytes t => Still s t ∧ ∃ o ∈ s.outside :: s.script, Sends cancelable key info o bytes)
      (fun _ => Still s) s := by
  refine wp_bind (wp_moment (fun o t ht ho => ?_) (.refl s))
  refine wp_bind (wp_lift (fun response hresponse => ?_) fun _ _ => ht)
  split
  · exact wp_throw ht
  refine wp_orElse (wp_lift (fun bytes hbytes => ⟨ht, o, ho, response, hresponse, hbytes⟩) fun e _ =>
    wp_bind ?_)
  exact cleanupCanceled_wp.mono (fun _ _ hu => wp_throw (ht.trans hu)) (fun _ _ hu => hu) fun _ hu =>
    ht.trans hu

/-- What is fetched is an upgrade, and has the checksum that was offered. -/
theorem fetch_wp :
    wp (Still s) (fetch P self cancelable key info)
      (fun bytes t => Still s t ∧
        UpdatePolicy.is_version_upgrade P.semver info.version (P.kiosk_app_version self) = true ∧
        P.sha256 bytes = info.sha256 ∧ ∃ o ∈ s.outside :: s.script, Sends cancelable key info o bytes)
      (fun _ => Still s) s := by
  refine wp_bind (wp_lift (fun _ hok => ?_) fun _ _ => .refl s)
  have hupgrade : UpdatePolicy.is_version_upgrade P.semver info.version (P.kiosk_app_version self) =
      true := by
    unfold ensure_upgrade at hok
    split at hok
    · assumption
    · cases hok
  refine wp_bind (downloadBody_wp.mono (fun bytes t hbytes => ?_) (fun _ _ h => h) fun _ h => h)
  obtain ⟨ht, hsent⟩ := hbytes
  refine wp_bind (checkCancel_wp.mono (fun _ u hu => ?_) (fun _ u hu => ht.trans hu.1) fun u hu =>
    ht.trans hu)
  have hu := ht.trans hu
  split
  · exact wp_throw hu
  next hsha =>
  refine wp_bind (wp_lift (fun _ _ => ?_) fun _ _ => hu)
  refine wp_bind (checkCancel_wp.mono (fun _ v hv => ?_) (fun _ v hv => hu.trans hv.1) fun v hv =>
    hu.trans hv)
  exact wp_pure ⟨hu.trans hv, hupgrade, not_not.1 hsha, hsent⟩

end Download

/-! ### Programs that leave the executables alone -/

section Keeps

variable {ε α β : Type}

theorem frame_bind {x : Prog ε World α} {f : α → Prog ε World β} (hx : Keeps Frame x)
    (hf : ∀ a, Keeps Frame (f a)) :
    Keeps Frame (x >>= f) := .bind (fun _ _ _ => Frame.trans) hx hf

theorem frame_pure {a : α} : Keeps Frame (pure a : Prog ε World α) := .pure .refl

theorem look_frame : Keeps Frame (look : Prog ε World Outside) :=
  .look .refl fun _ _ _ => ⟨rfl, rfl, rfl, rfl, rfl⟩

theorem guarded_frame {x : Prog ε Guard α} : Keeps Frame (guarded x) :=
  .zoom fun _ _ => ⟨rfl, rfl, rfl, rfl, rfl⟩

theorem recordApplied_frame {version : String} : Keeps Frame (recordApplied version : Prog ε World Unit) := by
  unfold recordApplied
  split
  · exact frame_pure
  · exact guarded_frame

theorem writeNew_frame {cancelable : Bool} {bytes : Bytes} : Keeps Frame (writeNew cancelable bytes) := by
  have hsync : Keeps Frame (.write id "sync app: io error" : Prog String World Unit) := .write .refl .refl
  refine frame_bind (.write .refl fun _ => ⟨rfl, rfl, rfl, rfl, rfl⟩) fun _ => frame_bind ?_ fun _ => ?_
  · exact .op (fun _ => ⟨rfl, rfl, rfl, rfl, rfl⟩) .refl .refl .refl
  · split
    · exact .orElse (fun _ _ _ => Frame.trans) hsync fun _ => frame_pure
    · exact hsync

end Keeps

/-! ### Confirmation -/

/-- The marker is gone, and `app` is confirmed. -/
structure Confirmed (app : Bytes) (s t : World) : Prop where
  bin : t.bin = s.bin
  prev : t.prev = s.prev
  marker : t.marker = none
  running : t.running = s.running
  confirmed : t.confirmed = app :: s.confirmed

/-- Whatever other threads of the process `app` do keeps `I`. -/
structure Stable (P : Platform) (app : Bytes) (I : World → Prop) : Prop where
  frame : ∀ {s t}, I s → Frame s t → I t
  confirm : ∀ {s t marker}, I s → s.marker = some marker → marker.isFor P app = true → Confirmed app s t → I t

section Confirmation

variable {P : Platform} {self : Bytes} {I C : World → Prop} {s t u : World} {ε : Type}

theorem Confirmed.frame (h : Confirmed self s t) (hf : Frame t u) : Confirmed self s u :=
  ⟨hf.bin.trans h.bin, hf.prev.trans h.prev, hf.marker.trans h.marker, hf.running.trans h.running,
    hf.confirmed.trans h.confirmed⟩

theorem Stable.mark (h : Stable P self I) (hs : I s) :
    wp I (mark_firmware_applied P self) (fun _ => I) (fun _ => I) s := by
  refine wp_bind (wp_bind (wp_read_or (fun found hfound => ?_) hs))
  split
  · exact wp_throw hs
  next marker =>
  have hmarker : s.marker = some marker := by simpa [eq_comm] using hfound
  split
  · exact wp_throw hs
  next hfor =>
  have hconfirm : ∀ t, Confirmed self s t → I t := fun t => h.confirm hs hmarker (by simpa using hfor)
  have hrest : Keeps Frame (do
      (Prog.write (fun s : World => { s with attempts := none }) ()).ignore
      return marker.version) := by
    refine frame_bind (.orElse (fun _ _ _ => Frame.trans) ?_ fun _ => frame_pure) fun _ => frame_pure
    exact .write .refl fun _ => ⟨rfl, rfl, rfl, rfl, rfl⟩
  refine wp_bind (wp_write ?_ hs hs)
  have hnow : Confirmed self s { s with marker := none, confirmed := self :: s.confirmed } :=
    ⟨rfl, rfl, rfl, rfl, rfl⟩
  refine hrest.wp (fun version t ht => ?_) (fun _ t ht => hconfirm t (hnow.frame ht)) fun t ht =>
    hconfirm t (hnow.frame ht)
  have ht := hnow.frame ht
  exact recordApplied_frame.wp (fun _ u hu => hconfirm u (ht.frame hu)) (fun _ u hu =>
    hconfirm u (ht.frame hu))
    fun u hu => hconfirm u (ht.frame hu)

theorem Stable.others (h : Stable P self I) (hC : ∀ t, I t → C t) {E : ε → World → Prop} (hs : I s) :
    wp C (others P self) (fun _ => I) E s := by
  have htimes : ∀ (n : Nat) (s : World), I s →
      wp C (markTimes P self n : Prog ε World Unit) (fun _ => I) E s := by
    intro n
    induction n with
    | zero => exact fun s hs => wp_pure hs
    | succ n ih =>
      intro s hs
      refine wp_bind (wp_orElse ?_)
      exact (h.mark hs).mono (fun _ t ht => ih t ht) (fun _ t ht => wp_pure (ih t ht)) hC
  exact wp_bind (wp_look (fun o t ht => htimes _ t (h.frame hs ht.frame)) (hC s hs))

end Confirmation

/-! ### A pass of the executable confirmed last -/

/-- The executable confirmed last is installed and runs. -/
structure Settled (app : Bytes) (s : World) : Prop where
  running : s.running = some app
  last : s.confirmed.head? = some app
  bin : s.bin = .whole app
  prev : s.marker ≠ none → s.prev = some (.whole app)

/-- The backup is made. -/
structure Stashed (app : Bytes) (s : World) : Prop extends Settled app s where
  backup : s.prev = some (.whole app)

/-- The backup is made and the marker is that of `version`. -/
structure Armed (version : String) (app : Bytes) (s : World) : Prop where
  last : s.confirmed.head? = some app
  marker : ∃ mtime, s.marker = some ⟨version, none, mtime⟩
  backup : s.prev = some (.whole app)

/-- Everything is there for the swap. -/
structure Ready (version : String) (app : Bytes) (s : World) : Prop where
  settled : Settled app s
  armed : Armed version app s

section Pass

variable {P : Platform} {self : Bytes} {info : UpdateInfo} {version : String} {s t : World}

theorem Settled.frame (h : Settled self s) (hf : Frame s t) : Settled self t := by
  obtain ⟨hb, hp, hm, hr, hc⟩ := hf
  exact ⟨hr.trans h.running, by rw [hc]; exact h.last, hb.trans h.bin, by rw [hm, hp]; exact h.prev⟩

theorem Settled.confirm (h : Settled self s) (hc : Confirmed self s t) : Settled self t := by
  refine ⟨hc.running.trans h.running, ?_, hc.bin.trans h.bin, fun hm => absurd hc.marker hm⟩
  rw [hc.confirmed]
  rfl

theorem Settled.safe (h : Settled self s) : Safe s :=
  ⟨fun _ => ⟨self, h.last, h.bin⟩, fun hm => ⟨self, h.last, h.prev hm⟩⟩

theorem Settled.stable : Stable P self (Settled self) :=
  ⟨fun h hf => h.frame hf, fun h _ _ hc => h.confirm hc⟩

theorem Stashed.frame (h : Stashed self s) (hf : Frame s t) : Stashed self t :=
  ⟨h.toSettled.frame hf, hf.prev.trans h.backup⟩

theorem Stashed.stable : Stable P self (Stashed self) :=
  ⟨fun h hf => h.frame hf,
    fun h _ _ hc => ⟨h.toSettled.confirm hc, hc.prev.trans h.backup⟩⟩

theorem Armed.frame (h : Armed version self s) (hf : Frame s t) : Armed version self t :=
  ⟨by rw [hf.confirmed]; exact h.last, by rw [hf.marker]; exact h.marker, hf.prev.trans h.backup⟩

theorem Armed.safe (h : Armed version self s) : Safe s := by
  obtain ⟨mtime, hm⟩ := h.marker
  refine ⟨fun hnone => ?_, fun _ => ⟨self, h.last, h.backup⟩⟩
  rw [hm] at hnone
  cases hnone

/-- A marker is not taken for its own by a process of another version. -/
theorem not_isFor {mtime : Int} (hne : plainVersion version ≠ plainVersion (P.kiosk_app_version self)) :
    Marker.isFor P self ⟨version, none, mtime⟩ = false := by
  simp [Marker.isFor, hne]

theorem Armed.not_confirmed {marker : Marker} (h : Armed version self s)
    (hne : plainVersion version ≠ plainVersion (P.kiosk_app_version self)) (hm : s.marker = some marker)
    (hfor : marker.isFor P self = true) : False := by
  obtain ⟨mtime, hmarker⟩ := h.marker
  rw [hmarker] at hm
  cases hm
  rw [not_isFor hne] at hfor
  cases hfor

theorem Armed.stable (hne : plainVersion version ≠ plainVersion (P.kiosk_app_version self)) :
    Stable P self (Armed version self) :=
  ⟨fun h hf => h.frame hf, fun h hm hfor _ => (h.not_confirmed hne hm hfor).elim⟩

theorem Ready.stable (hne : plainVersion version ≠ plainVersion (P.kiosk_app_version self)) :
    Stable P self (Ready version self) :=
  ⟨fun h hf => ⟨h.settled.frame hf, h.armed.frame hf⟩, fun h hm hfor _ =>
    (h.armed.not_confirmed hne hm hfor).elim⟩

theorem stash_wp (h : Settled self s) :
    wp Safe stash_previous_binary (fun _ => Stashed self) (fun _ => Settled self) s := by
  refine wp_bind (wp_op ?_ h h.safe h.safe)
  refine wp_write ?_ h h.safe
  have hbackup : some s.bin = some (.whole self) := congrArg some h.bin
  exact ⟨⟨h.running, h.last, h.bin, fun _ => hbackup⟩, hbackup⟩

theorem persist_wp (h : Stashed self s) :
    wp Safe (persist_pending_marker version) (fun _ => Ready version self) (fun _ => Settled self) s := by
  refine wp_bind (wp_write ?_ h.toSettled h.safe)
  refine wp_bind (wp_look (fun o t ht => ?_) h.safe)
  have ht : Stashed self t := h.frame ht.frame
  refine wp_bind (wp_write ?_ ht.toSettled ht.safe)
  refine wp_bind (wp_write ?_ ht.toSettled ht.safe)
  have hreset : Settled self { t with attempts := none } := ht.toSettled.frame ⟨rfl, rfl, rfl, rfl, rfl⟩
  refine wp_write ?_ hreset hreset.safe
  exact ⟨⟨ht.running, ht.last, ht.bin, fun _ => ht.backup⟩, ⟨ht.last, ⟨o.now, rfl⟩, ht.backup⟩⟩

theorem Settled.keeps {ε α : Type} {x : Prog ε World α} (h : Settled self s) (hx : Keeps Frame x) :
    wp Safe x (fun _ => Settled self) (fun _ => Settled self) s :=
  hx.wp (fun _ _ => h.frame) (fun _ _ => h.frame) fun _ hf => (h.frame hf).safe

theorem applyUpdate_wp {cancelable : Bool} {key : Option String} (h : Settled self s)
    (hne : plainVersion info.version ≠ plainVersion (P.kiosk_app_version self)) :
    wp Safe (applyUpdate P self cancelable key info) (fun _ => Safe) (fun _ => Settled self) s := by
  have hsettled : Stable P self (Settled self) := Settled.stable
  have hstill : ∀ {s t : World}, Settled self s → Still s t → Settled self t := fun h ht => h.frame ht.frame
  refine wp_bind (fetch_wp.mono (fun bytes t ht => ?_) (fun _ _ ht => hstill h ht) fun _ ht =>
    (hstill h ht).safe)
  refine wp_bind (((hstill h ht.1).keeps writeNew_frame).mono (fun _ s h => ?_) (fun _ _ h => h) fun _ h => h)
  refine wp_bind (checkCancel_wp.mono (fun _ t ht => ?_) (fun _ _ ht => hstill h ht.1) fun _ ht =>
    (hstill h ht).safe)
  have h := hstill h ht
  refine wp_bind ((hsettled.others (fun _ => Settled.safe) h).mono (fun _ s h => ?_) (fun _ _ h => h)
    fun _ h => h)
  refine wp_bind (wp_bind ((stash_wp h).mono (fun _ s h => ?_) (fun _ _ h => h) fun _ h => h))
  refine wp_bind ((Stashed.stable.others (fun _ h => h.safe) h).mono (fun _ s h => ?_)
    (fun _ _ h => h) fun _ h => h)
  refine (persist_wp h).mono (fun _ s h => ?_) (fun _ _ h => h) fun _ h => h
  refine wp_bind (((Ready.stable hne).others (fun _ h => h.settled.safe) h).mono (fun _ s h => ?_)
    (fun _ _ h => h) fun _ h => h)
  have hrename : wp Safe (renameNew info.version) (fun _ => Armed info.version self)
      (fun _ => Settled self) s := by
    refine wp_op ?_ h.settled h.settled.safe h.settled.safe
    dsimp only
    split
    · exact h.settled
    · exact ⟨h.armed.last, h.armed.marker, h.armed.backup⟩
  refine wp_bind (hrename.mono (fun _ s h => ?_) (fun _ _ h => h) fun _ h => h)
  exact ((Armed.stable hne).others (fun _ => Armed.safe) h).mono (fun _ _ => Armed.safe)
    (fun _ _ h => h) fun _ h => h

/-- A process that exits if it returns `true`. -/
def Exits (app : Bytes) (exits : Bool) (s : World) : Prop := if exits then Safe s else Settled app s

theorem applyExits_wp {cancelable : Bool} {key : Option String} (h : Settled self s)
    (hne : plainVersion info.version ≠ plainVersion (P.kiosk_app_version self)) :
    wp Safe (do applyUpdate P self cancelable key info; return true : Prog String World Bool)
      (Exits self) (fun _ => Settled self) s :=
  wp_bind ((applyUpdate_wp h hne).mono (fun _ _ h => wp_pure h) (fun _ _ h => h) fun _ h => h)

theorem attempt_wp {key : String} {force : Bool} (h : Settled self s)
    (hne : plainVersion info.version ≠ plainVersion (P.kiosk_app_version self)) :
    wp Safe (attempt P self info key force) (Exits self) (fun _ => Settled self) s := by
  refine wp_bind ((h.keeps guarded_frame).mono (fun blocked s h => ?_) (fun _ _ h => h) fun _ h => h)
  split
  · exact wp_pure h
  refine wp_bind ((h.keeps look_frame).mono (fun o s h => ?_) (fun _ _ h => h) fun _ h => h)
  split
  · exact wp_pure h
  · exact applyExits_wp h hne

theorem worker_wp {check : CheckResponse} {key : String} {force : Bool} {E : Empty → World → Prop}
    (h : Settled self s) (hne : ∀ info, newer_update P self check = some info →
      plainVersion info.version ≠ plainVersion (P.kiosk_app_version self)) :
    wp Safe (run_firmware_update_worker P self check key force) (Exits self) E s := by
  unfold run_firmware_update_worker
  split
  · exact wp_pure h
  next info hinfo =>
  refine wp_orElse ((attempt_wp h (hne info hinfo)).mono (fun _ _ h => h) (fun error s h => ?_) fun _ h => h)
  split
  · exact wp_pure h
  · exact wp_bind ((h.keeps guarded_frame).mono (fun _ _ h => wp_pure h) (fun e => e.elim) fun _ h => h)

theorem prebootAttempt_wp {check : CheckResponse} (h : Settled self s)
    (hne : ∀ info, newer_update P self check = some info →
      plainVersion info.version ≠ plainVersion (P.kiosk_app_version self)) :
    wp Safe (prebootAttempt P self check) (Exits self) (fun _ => Settled self) s := by
  refine wp_bind (wp_look (fun o t ht => ?_) h.safe)
  have h := h.frame ht.frame
  split
  · exact wp_pure h
  split
  · exact wp_pure h
  next info hinfo =>
  refine wp_bind (wp_look (fun o t ht => ?_) h.safe)
  have h := h.frame ht.frame
  split
  · exact wp_pure h
  · exact applyExits_wp h (hne info hinfo)

theorem preboot_wp {check : CheckResponse} {E : Empty → World → Prop} (h : Settled self s)
    (hne : ∀ info, newer_update P self check = some info →
      plainVersion info.version ≠ plainVersion (P.kiosk_app_version self)) :
    wp Safe (prebootUpdate P self check) (Exits self) E s :=
  wp_orElse ((prebootAttempt_wp h hne).mono (fun _ _ h => h) (fun _ _ h => wp_pure h) fun _ h => h)

end Pass

/-! ### The script -/

/-- No process runs. -/
structure Down (s : World) : Prop extends Safe s where
  running : s.running = none

/-- The app is down, with an update that is not confirmed. -/
structure Pending (s : World) : Prop extends Down s where
  marker : s.marker ≠ none

/-- The executable confirmed last is installed. -/
structure Restored (s : World) : Prop extends Down s where
  last : ∃ bytes, s.confirmed.head? = some bytes ∧ s.bin = .whole bytes

section Script

variable {s t : World}

theorem Down.inv (h : Down s) : Inv s := ⟨h.toSafe, fun bytes hr => by rw [h.running] at hr; cases hr⟩

theorem Pending.frame (h : Pending s) (hf : Frame s t) : Pending t :=
  ⟨⟨h.toSafe.frame hf, hf.running.trans h.running⟩, by rw [hf.marker]; exact h.marker⟩

theorem Restored.cleared (h : Restored s) : Restored { s with marker := none } :=
  ⟨⟨⟨fun _ => h.last, fun hm => absurd rfl hm⟩, h.running⟩, h.last⟩

theorem Restored.attempts (h : Restored s) (attempts : Option String) : Restored { s with attempts } :=
  ⟨⟨⟨h.bin, h.prev⟩, h.running⟩, h.last⟩

theorem clear_bookkeeping_wp (h : Restored s) :
    wp Down clear_bookkeeping (fun _ => Down) (fun _ => Down) s := by
  refine wp_bind (wp_ignore (wp_write ?_ ?_ h.toDown))
  · exact wp_ignore (wp_write (h.cleared.attempts none).toDown h.cleared.toDown h.cleared.toDown)
  · exact wp_ignore (wp_write (h.attempts none).toDown h.toDown h.toDown)

/-- While the executable is overwritten, the marker keeps the backup in force. -/
theorem rollback_wp (h : Pending s) : wp Down rollback (fun _ => Down) (fun _ => Down) s := by
  refine wp_bind (wp_get ?_ h.toDown)
  obtain ⟨bytes, hlast, hprev⟩ := h.prev h.marker
  rw [hprev]
  have htorn : Down { s with bin := .torn } := ⟨⟨fun hm => absurd hm h.marker, h.prev⟩, h.running⟩
  refine wp_bind (wp_bind (wp_write ?_ h.toDown h.toDown))
  refine wp_op ?_ htorn htorn htorn
  have hback : Restored { s with
      bin := .whole bytes
      guard := { s.guard with
        history := (s.marker.map fun m => .rolledBack "firmware" m.version).toList ++ s.guard.history } } :=
    ⟨⟨⟨fun hm => absurd hm h.marker, h.prev⟩, h.running⟩, bytes, hlast, rfl⟩
  exact wp_bind (wp_write (clear_bookkeeping_wp hback) hback.toDown hback.toDown)

theorem touchMarker_wp {attempts : Nat} {E : Nat → World → Prop} (h : Pending s) :
    wp Down (touchMarker attempts) (fun _ => Pending) E s := by
  unfold touchMarker
  split
  · exact wp_pure h
  · refine wp_orElse (wp_bind (wp_look (fun o t ht => ?_) h.toDown))
    have ht := h.frame ht.frame
    obtain ⟨marker, hm⟩ := Option.ne_none_iff_exists'.1 ht.marker
    refine wp_bind (wp_write ?_ (wp_pure ht) ht.toDown)
    refine wp_pure ⟨⟨⟨fun hnone => ?_, fun _ => ht.prev ht.marker⟩, ht.running⟩, ?_⟩
    · rw [hm] at hnone
      cases hnone
    · rw [hm]
      simp

theorem recordStart_wp {attempts : Nat} {E : Nat → World → Prop} (h : Pending s) :
    wp Down (recordStart attempts) (fun _ => Pending) E s := by
  have hquiet : ∀ text, Pending { s with attempts := some text } := fun _ => h.frame ⟨rfl, rfl, rfl, rfl, rfl⟩
  refine wp_orElse (wp_bind (wp_write ?_ (wp_pure h) h.toDown))
  exact wp_bind (wp_write (wp_pure (hquiet _)) (wp_pure (hquiet _)) (hquiet _).toDown)

theorem startCandidate_wp {attempts : Nat} (h : Pending s) :
    wp Down (startCandidate attempts) (fun _ => Down) (fun _ => Down) s := by
  refine wp_bind (wp_read_or (fun mtime _ => ?_) h.toDown)
  refine wp_bind (wp_look (fun o t ht => ?_) h.toDown)
  have h := h.frame ht.frame
  split
  · exact rollback_wp h
  split
  · exact rollback_wp h
  refine wp_bind ((recordStart_wp h).mono (fun recorded t h => ?_) (fun _ _ h => h) fun _ h => h)
  split
  · exact wp_pure h.toDown
  · exact rollback_wp h

theorem rollbackScript_wp (h : Down s) : wp Down rollbackScript (fun _ => Down) (fun _ => Down) s := by
  refine wp_bind (wp_get ?_ h)
  split
  · next hm => exact clear_bookkeeping_wp ⟨h, h.bin hm⟩
  next marker hm =>
  have h : Pending s := ⟨h, by rw [hm]; simp⟩
  refine wp_bind (wp_read_or (fun text _ => ?_) h.toDown)
  refine wp_bind ((touchMarker_wp h).mono (fun touched t h => ?_) (fun _ _ h => h) fun _ h => h)
  split
  · exact startCandidate_wp h
  · exact rollback_wp h

end Script

/-! ### Runs -/

section Runs

variable {P : Platform} {self : Bytes} {s s' : World} {plan : List Fault}

theorem Settled.inv (h : Settled self s) : Inv s := by
  refine ⟨h.safe, fun bytes hr => ?_⟩
  rw [h.running] at hr
  cases hr
  exact h.bin

/-- A process may confirm its own executable at any time. -/
theorem Inv.stable : Stable P self fun s => Inv s ∧ s.running = some self := by
  refine ⟨fun h hf => ⟨h.1.frame hf, hf.running.trans h.2⟩, fun {s t marker} h _ _ hc => ?_⟩
  have hbin : t.bin = .whole self := hc.bin.trans (h.1.running self h.2)
  have hrun : t.running = some self := hc.running.trans h.2
  refine ⟨⟨⟨fun _ => ⟨self, by rw [hc.confirmed]; rfl, hbin⟩, fun hm => absurd hc.marker hm⟩,
    fun bytes hr => ?_⟩, hrun⟩
  rw [hrun] at hr
  cases hr
  exact hbin

theorem settle_wp {ε : Type} {I C : World → Prop} {x : Prog ε World Bool}
    (hdead : ∀ t, C t → I { t with running := none })
    (h : wp C x (fun exits t => C t ∧ (exits = false → I t)) (fun _ => I) s) : I (settle (x s plan)) := by
  have := h plan
  cases hx : x s plan with
  | done exits t _ =>
    rw [hx] at this
    rcases exits with _ | _
    · exact this.2 rfl
    · exact hdead t this.1
  | thrown e t _ => rw [hx] at this; exact this
  | crashed t => rw [hx] at this; exact hdead t this

theorem Exits.inv {exits : Bool} (h : Exits self exits s) : Safe s ∧ (exits = false → Inv s) := by
  rcases exits with _ | _
  · exact ⟨Settled.safe h, fun _ => Settled.inv h⟩
  · exact ⟨h, fun h => by cases h⟩

/-- A pass without an update to take up. -/
theorem idle_inv {ε : Type} {x : Prog ε World Bool} (hx : Keeps Frame x) (h : Inv s) :
    Inv (settle (x s plan)) :=
  settle_wp (fun _ => Safe.dead)
    (hx.wp (fun _ _ hf => ⟨(h.frame hf).toSafe, fun _ => h.frame hf⟩) (fun _ _ hf => h.frame hf)
    fun _ hf => (h.frame hf).toSafe)

theorem worker_idle {check : CheckResponse} {key : String} {force : Bool}
    (hnone : newer_update P self check = none) :
    Keeps Frame (run_firmware_update_worker P self check key force : Prog Empty World Bool) := by
  unfold run_firmware_update_worker
  rw [hnone]
  exact frame_pure

theorem preboot_idle {check : CheckResponse} (hnone : newer_update P self check = none) :
    Keeps Frame (prebootUpdate P self check : Prog Empty World Bool) := by
  refine .orElse (fun _ _ _ => Frame.trans) (frame_bind look_frame fun o => ?_) fun _ => frame_pure
  split
  · exact frame_pure
  · rw [hnone]
    exact frame_pure

/-- The executable that takes an upgrade up is the one confirmed last. -/
theorem Inv.settled {a : Action} {check : CheckResponse} {info : UpdateInfo} (h : Inv s)
    (hrun : s.running = some self)
    (hgood : Proven P s a = true) (hcheck : a.check = some check)
    (hinfo : newer_update P self check = some info) :
    Settled self s ∧ plainVersion info.version ≠ plainVersion (P.kiosk_app_version self) := by
  simp only [Proven, hrun, hcheck, hinfo, Option.all_some, Bool.and_eq_true, decide_eq_true_eq] at hgood
  have hbin := h.running self hrun
  refine ⟨⟨hrun, hgood.1, hbin, fun hm => ?_⟩, hgood.2⟩
  obtain ⟨bytes, hlast, hprev⟩ := h.prev hm
  rw [hgood.1] at hlast
  cases hlast
  exact hprev

theorem Inv.step {a : Action} (h : Inv s) (hgood : Proven P s a = true) (hstep : step P s a = some s') :
    Inv s' := by
  have hframe : ∀ env : Env, Frame s (s.enter env) := fun _ => ⟨rfl, rfl, rfl, rfl, rfl⟩
  cases a with
  | worker check key force env =>
    obtain ⟨self, hrun, rfl⟩ := Option.map_eq_some_iff.1 hstep
    rcases hinfo : newer_update P self check with _ | info
    · exact idle_inv (worker_idle hinfo) (h.frame (hframe env))
    · obtain ⟨hs, hne⟩ := h.settled hrun hgood rfl hinfo
      refine settle_wp (fun _ => Safe.dead)
        ((worker_wp (E := fun _ => Inv) (hs.frame (hframe env)) fun info' hinfo' => ?_).mono
        (fun _ _ h => h.inv) (fun _ _ h => h) fun _ h => h)
      rw [hinfo] at hinfo'
      cases hinfo'
      exact hne
  | preboot check env =>
    obtain ⟨self, hrun, rfl⟩ := Option.map_eq_some_iff.1 hstep
    rcases hinfo : newer_update P self check with _ | info
    · exact idle_inv (preboot_idle hinfo) (h.frame (hframe env))
    · obtain ⟨hs, hne⟩ := h.settled hrun hgood rfl hinfo
      refine settle_wp (fun _ => Safe.dead)
        ((preboot_wp (E := fun _ => Inv) (hs.frame (hframe env)) fun info' hinfo' => ?_).mono
        (fun _ _ h => h.inv) (fun _ _ h => h) fun _ h => h)
      rw [hinfo] at hinfo'
      cases hinfo'
      exact hne
  | confirm env =>
    obtain ⟨self, hrun, rfl⟩ := Option.map_eq_some_iff.1 hstep
    have hmark := Inv.stable (P := P) |>.mark ⟨h.frame (hframe env), (hframe env).running.trans hrun⟩
    refine settle_wp (fun _ => Safe.dead)
      (wp_bind (hmark.mono (fun _ t ht => ?_) (fun _ t ht => ht.1) fun t ht => ht.1.toSafe))
    exact wp_pure ⟨ht.1.toSafe, fun _ => ht.1⟩
  | start env =>
    obtain rfl := Option.some.inj hstep
    have hdown : Down { s.enter env with running := none } := ⟨⟨h.bin, h.prev⟩, rfl⟩
    have := rollbackScript_wp hdown env.plan
    unfold launch
    split
    · next t _ ht =>
      rw [ht] at this
      have hd : Down t := this
      split
      · next bytes hbytes =>
        refine ⟨⟨hd.bin, hd.prev⟩, fun bytes' hr => ?_⟩
        cases hr
        exact hbytes
      · exact hd.inv
    · next t _ ht => rw [ht] at this; exact Down.inv this
    · next t ht => rw [ht] at this; exact Down.inv this
  | die =>
    obtain rfl := Option.some.inj hstep
    exact h.toSafe.dead

end Runs

/-! ### Starts without faults -/

/-- The starts of the candidate that are on record. -/
def starts (s : World) : Nat := parseAttempts (s.attempts.getD "0")

section Starts

variable {s t : World}

theorem clean_look {ε : Type} {Q : Outside → World → Prop}
    (hQ : ∀ o t, Frame s t → t.attempts = s.attempts → Q o t) : Clean (look : Prog ε World Outside) Q s :=
  Crash.clean_look (hQ _ s (.refl s) rfl) fun _ _ _ => hQ _ _ ⟨rfl, rfl, rfl, rfl, rfl⟩ rfl

theorem clear_bookkeeping_clean :
    Clean clear_bookkeeping (fun _ t => t.marker = none ∧ t.confirmed = s.confirmed) s :=
  clean_bind (clean_orElse (clean_write (clean_orElse (clean_write ⟨rfl, rfl⟩))))

theorem rollback_clean {previous : Contents} (hprev : s.prev = some previous) :
    Clean rollback (fun _ t => t.marker = none ∧ t.confirmed = s.confirmed) s := by
  refine clean_bind (clean_get ?_)
  rw [hprev]
  refine clean_bind (clean_bind (clean_write (clean_op rfl ?_)))
  exact clean_bind (clean_write clear_bookkeeping_clean)

theorem touchMarker_clean (s : World) (attempts : Nat) :
    Clean (touchMarker attempts) (fun touched t => touched = true ∧ t.prev = s.prev ∧
      t.attempts = s.attempts ∧ t.confirmed = s.confirmed) s := by
  unfold touchMarker
  split
  · exact clean_pure ⟨rfl, rfl, rfl, rfl⟩
  · refine clean_orElse (clean_bind (clean_look fun o t ht ha => ?_))
    exact clean_bind (clean_write (clean_pure ⟨rfl, ht.prev, ha, ht.confirmed⟩))

theorem parseAttempts_toString : ∀ n < MAX_ATTEMPTS, parseAttempts (toString (n + 1)) = n + 1 := by decide

theorem startCandidate_clean {previous : Contents} (hprev : s.prev = some previous) :
    Clean (startCandidate (starts s)) (fun _ t => t.confirmed = s.confirmed ∧
      (t.marker = none ∨ (starts s < MAX_ATTEMPTS ∧ starts t = starts s + 1))) s := by
  have hback : ∀ t, Frame s t →
      Clean rollback (fun _ u => u.confirmed = s.confirmed ∧
        (u.marker = none ∨ (starts s < MAX_ATTEMPTS ∧ starts u = starts s + 1))) t := by
    intro t ht
    obtain ⟨_, u, hu, hm, hc⟩ := rollback_clean (ht.prev.trans hprev)
    exact ⟨_, u, hu, hc.trans ht.confirmed, .inl hm⟩
  refine clean_bind (clean_read (clean_bind (clean_look fun o t ht _ => ?_)))
  split
  · exact hback t ht
  split
  · exact hback t ht
  next hlt =>
  have hlt : starts s < MAX_ATTEMPTS := Nat.lt_of_not_le hlt
  refine clean_bind (clean_orElse (clean_bind (clean_write (clean_bind (clean_write (clean_pure ?_))))))
  exact clean_pure ⟨ht.confirmed, .inr ⟨hlt, parseAttempts_toString _ hlt⟩⟩

/-- A start either takes the candidate back or counts. -/
theorem rollbackScript_clean (h : Safe s) :
    Clean rollbackScript (fun _ t => t.confirmed = s.confirmed ∧
      (t.marker = none ∨ (s.marker ≠ none ∧ starts s < MAX_ATTEMPTS ∧ starts t = starts s + 1))) s := by
  refine clean_bind (clean_get ?_)
  rcases hmarker : s.marker with _ | marker
  · obtain ⟨_, t, ht, hm, hc⟩ := clear_bookkeeping_clean (s := s)
    exact ⟨_, t, ht, hc, .inl hm⟩
  obtain ⟨bytes, -, hprev⟩ := h.prev (by rw [hmarker]; simp)
  refine clean_bind (clean_read (clean_bind ?_))
  obtain ⟨touched, t, ht, rfl, hp, ha, hc⟩ := touchMarker_clean s (starts s)
  have hstarts : starts t = starts s := by unfold starts; rw [ha]
  refine ⟨true, t, ht, ?_⟩
  obtain ⟨_, u, hu, hc', hu'⟩ := startCandidate_clean (hp.trans hprev)
  rw [hstarts] at hu hu'
  exact ⟨_, u, hu, hc'.trans hc, hu'.imp_right fun h => ⟨by simp, h⟩⟩

/-- A start at which no operation fails. -/
def Action.cleanStart : Action → Bool
  | .start env => env.plan = []
  | _ => false

variable {P : Platform} {a : Action}

theorem proven_of_no_check (h : a.check = none) : Proven P s a = true := by
  unfold Proven
  rw [h]
  cases s.running <;> rfl

theorem start_clean (h : Inv s) (ha : a.cleanStart = true) :
    ∃ t, step P s a = some t ∧ Inv t ∧ t.confirmed = s.confirmed ∧
      (t.marker = none ∨ (s.marker ≠ none ∧ starts s < MAX_ATTEMPTS ∧ starts t = starts s + 1)) ∧
      ∀ bytes, t.bin = .whole bytes → t.running = some bytes := by
  cases a with
  | start env =>
    have hplan : env.plan = [] := of_decide_eq_true ha
    have hdown : Down { s.enter env with running := none } := ⟨⟨h.bin, h.prev⟩, rfl⟩
    have hstep : step P s (.start env) =
        some (launch (rollbackScript { s.enter env with running := none } [])) := by
      rw [← hplan]
      rfl
    refine ⟨_, hstep, h.step (proven_of_no_check rfl) hstep, ?_⟩
    obtain ⟨_, t, ht, hc, hcount⟩ := rollbackScript_clean hdown.toSafe
    rw [ht]
    unfold launch
    rcases hbin : t.bin with bytes | _
    · simp only [hbin]
      refine ⟨hc, hcount, fun bytes' h => ?_⟩
      cases h
      rfl
    · simp only [hbin]
      exact ⟨hc, hcount, fun bytes' h => by cases h⟩
  | _ => cases ha

theorem starts_clean {actions : List Action} (h : Inv s) (hclean : ∀ a ∈ actions, a.cleanStart = true) :
    ∃ t, Machine.run (step P) s actions = some t ∧ Inv t ∧ t.confirmed = s.confirmed ∧
      (s.marker = none → t.marker = none) ∧
      (t.marker = none ∨ actions = [] ∨ starts s + actions.length ≤ MAX_ATTEMPTS) ∧
      (actions ≠ [] → ∀ bytes, t.bin = .whole bytes → t.running = some bytes) := by
  induction actions generalizing s with
  | nil => exact ⟨s, rfl, h, rfl, id, .inr (.inl rfl), fun h => absurd rfl h⟩
  | cons a actions ih =>
    obtain ⟨u, hu, hinv, hc, hcount, hrun⟩ := start_clean (P := P) h (hclean a (List.mem_cons_self ..))
    obtain ⟨t, ht, hinv', hc', hnone, hcount', hrun'⟩ :=
      ih hinv fun b hb => hclean b (List.mem_cons_of_mem _ hb)
    refine ⟨t, Machine.run_cons.2 ⟨u, hu, ht⟩, hinv', hc'.trans hc, fun hm => ?_, ?_, fun _ => ?_⟩
    · exact hnone (hcount.resolve_right fun h => h.1 hm)
    · rcases hcount with hu | ⟨-, hlt, hstarts⟩
      · exact .inl (hnone hu)
      · refine hcount'.imp_right fun hlen => .inr ?_
        rw [List.length_cons]
        rcases hlen with rfl | hlen
        · exact hlt
        · omega
    · rcases actions with _ | ⟨b, actions⟩
      · obtain rfl := Option.some.inj ht
        exact hrun
      · exact hrun' (by simp)

end Starts

/-- A display that was confirmed, with no update pending. -/
theorem Inv.init (first : Bytes) (prev new : Option Contents) (attempts : Option String)
    (guard : Guard) (running : Bool)
    (outside : Outside) : Inv (init first prev new attempts guard running outside) := by
  refine ⟨⟨fun _ => ⟨first, rfl, rfl⟩, fun hm => absurd rfl hm⟩, fun bytes hr => ?_⟩
  unfold Firmware.init at hr ⊢
  split at hr
  · cases hr
    rfl
  · cases hr

/-- However passes, starts and crashes follow one another, while every pass is that of the executable
confirmed last. -/
theorem update_keeps_way_back (P : Platform) (first : Bytes) (prev new : Option Contents)
    (attempts : Option String)
    (guard : Guard) (running : Bool) (outside : Outside) (actions : List Action) (s : World)
    (hrun : Machine.run (step P) (init first prev new attempts guard running outside) actions = some s)
    (hproven : Machine.Along (step P) (fun s a => Proven P s a = true)
      (init first prev new attempts guard running outside) actions) :
    WayBack s ∧
      ∀ launches : List Action, (∀ a ∈ launches, a.cleanStart = true) → 4 ≤ launches.length →
        ∃ t, Machine.run (step P) s launches = some t ∧
          ∃ bytes ∈ s.confirmed, t.bin = .whole bytes ∧ t.running = some bytes := by
  have hinv : Inv s := hproven.inv (fun _ _ _ hgood hstep h => Inv.step h hgood hstep) hrun (Inv.init ..)
  refine ⟨hinv.wayBack, fun launches hclean hlength => ?_⟩
  obtain ⟨t, ht, hinv', hc, -, hcount, hrun'⟩ := starts_clean (P := P) hinv hclean
  have hmarker : t.marker = none := by
    rcases hcount with hm | rfl | hlen
    · exact hm
    · exact absurd hlength (by decide)
    · exact absurd hlen (by unfold MAX_ATTEMPTS; omega)
  obtain ⟨bytes, hlast, hbin⟩ := hinv'.bin hmarker
  have hne : launches ≠ [] := by rintro rfl; exact absurd hlength (by decide)
  exact ⟨t, ht, bytes, hc ▸ List.mem_of_mem_head? hlast, hbin, hrun' hne bytes hbin⟩

/-- Versions are the lengths of their texts, and every signature is good. -/
def plainPlatform : Platform where
  semver := ⟨Nat, fun text => some text.toList.length, fun a b => a < b, UpdatePolicy.length_lt_irrefl,
    UpdatePolicy.length_lt_trans⟩
  sha256 bytes := if bytes.length = 1 then "sha-1" else if bytes.length = 2 then "sha-2" else "sha-3"
  verify_signature_with_key _ _ _ := true
  kiosk_app_version bytes := if bytes.length = 1 then "1" else if bytes.length = 2 then "11" else "111"
  signing_key _ := some "key"

/-- A server that has the binaries of the versions `11` and `111`. -/
def plainOutside : Outside where
  now := 0
  net := ⟨false, fun request =>
    some ⟨200, [⟨false, some (if request.path = "/11" then [0, 0] else [0, 0, 0])⟩]⟩⟩
  canceled := false
  allowed := true
  confirmations := 0

def plainEnv : Env := ⟨[], true, []⟩

def plainInit : World := init [0] none none none ⟨.empty, true, []⟩ true plainOutside

def offer (version : String) : Action :=
  .worker ⟨false, some (if version = "11" then ⟨"11", "sha-2", "", 2, "/11"⟩
    else ⟨"111", "sha-3", "", 3, "/111"⟩)⟩
    "key" false plainEnv

/-- An update that is installed and never confirms is taken back. -/
theorem update_keeps_way_back_restored :
    ∃ s t, Machine.run (step plainPlatform) plainInit [offer "11"] = some s ∧ s.bin = .whole [0, 0] ∧
      s.marker.isSome = true ∧ WayBack s ∧
      Machine.run (step plainPlatform) s (List.replicate 4 (.start plainEnv)) = some t ∧
      t.bin = .whole [0] := by
  obtain ⟨s, hrun, hbin, hmarker, hproven, hconfirmed⟩ :
      ∃ s, Machine.run (step plainPlatform) plainInit [offer "11"] = some s ∧ s.bin = .whole [0, 0] ∧
        s.marker.isSome = true ∧
        Machine.Along (step plainPlatform) (fun s a => Proven plainPlatform s a = true) plainInit
          [offer "11"] ∧
        s.confirmed = [[0]] :=
    ⟨_, rfl, rfl, rfl, ⟨rfl, trivial⟩, rfl⟩
  obtain ⟨hback, hstarts⟩ :=
    update_keeps_way_back plainPlatform [0] none none none ⟨.empty, true, []⟩ true plainOutside
    [offer "11"] s hrun hproven
  obtain ⟨t, ht, bytes, hmem, hbytes, -⟩ :=
    hstarts (List.replicate 4 (.start plainEnv)) (by decide) (by decide)
  rw [hconfirmed, List.mem_singleton] at hmem
  exact ⟨s, t, hrun, hbin, hmarker, hback, ht, hmem ▸ hbytes⟩

/-- An update that is taken up by an unconfirmed candidate leaves only that candidate to go back to. -/
theorem update_of_candidate_loses_way_back :
    ∃ s t, Machine.run (step plainPlatform) plainInit [offer "11", .start plainEnv, offer "111"] = some s ∧
      ¬ WayBack s ∧
      Machine.run (step plainPlatform) s (List.replicate 4 (.start plainEnv)) = some t ∧
      t.marker = none ∧ t.bin = .whole [0, 0] ∧ [0, 0] ∉ t.confirmed := by
  obtain ⟨s, hrun, hbin, hprev, hconfirmed, t, ht, hmarker, hbin', hconfirmed'⟩ :
      ∃ s, Machine.run (step plainPlatform) plainInit [offer "11", .start plainEnv, offer "111"] = some s ∧
        s.bin = .whole [0, 0, 0] ∧ s.prev = some (.whole [0, 0]) ∧ s.confirmed = [[0]] ∧
        ∃ t, Machine.run (step plainPlatform) s (List.replicate 4 (.start plainEnv)) = some t ∧
          t.marker = none ∧ t.bin = .whole [0, 0] ∧ t.confirmed = [[0]] :=
    ⟨_, rfl, rfl, rfl, rfl, _, rfl, rfl, rfl, rfl⟩
  refine ⟨s, t, hrun, ?_, ht, hmarker, hbin', by rw [hconfirmed']; decide⟩
  rintro (⟨bytes, hmem, hb⟩ | ⟨-, bytes, hlast, hb⟩)
  · rw [hconfirmed, List.mem_singleton] at hmem
    rw [hbin, hmem] at hb
    cases hb
  · rw [hconfirmed] at hlast
    cases hlast
    rw [hprev] at hb
    cases hb

end Firmware
