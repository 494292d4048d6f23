import WinTap.Proof.Driver.Frames
import WinTap.Proof.Driver.Teardown

/-!
# Who holds the locks of the instance

The state lock, the direct-read lock and the write-lifetime lock are taken and dropped at fixed points of the
callbacks, so the place of a callback says which locks it holds. A lock names exactly the callback that is at such a
place, and no two callbacks are there at once.
-/

namespace WinTap

variable {l : Lock} {th : Thread} {t : ThreadId} {d d' : Device} {h : Handle} {passive : Bool} {choice : Choice}

inductive Lock where
  | state
  | direct
  | write
  deriving DecidableEq, Repr

def Device.lock (d : Device) : Lock → Option ThreadId
  | .state => d.stateLock
  | .direct => d.legacyDirectReadLock
  | .write => d.writeLifetimeLock

/-! ### The places under a lock -/

def WritePc.locked : Lock → WritePc → Bool
  | .write, .lock => false
  | .write, _ => true
  | _, _ => false

def PacketPc.locked : Lock → PacketPc → Bool
  | .direct, .adaptive | .direct, .lockDirect | .direct, .allocate | .direct, .lifecycle | .direct, .owner
  | .direct, .loadAdaptive | .direct, .store .. => false
  | .direct, _ => true
  | _, _ => false

def EnablePc.locked : Lock → EnablePc → Bool
  | .state, .adaptive | .state, .pendingReads | .state, .directReadClaims | .state, .store => true
  | .direct, .validate | .direct, .lockDirect | .direct, .complete _ => false
  | .direct, _ => true
  | _, _ => false

def CleanupPc.locked : Lock → CleanupPc → Bool
  | .state, .claimLifecycle | .state, .zeroReads _ | .state, .zeroWrites _ | .state, .disableAdaptive _
  | .state, .releaseControl _ => true
  | .state, _ => false
  | _, .retire | _, .claimLifecycle | _, .quiesce .. | _, .lockDirect _ | _, .readmitCallbacks _ => false
  | .write, .lockWrite _ | .write, .unlockDirect _ => false
  | _, _ => true

def D0ExitPc.locked : Lock → D0ExitPc → Bool
  | .state, .zeroWrites | .state, .disarm => true
  | .state, _ => false
  | _, .suspend | _, .quiesce _ | _, .lockDirect => false
  | .write, .lockWrite | .write, .unlockDirect => false
  | _, _ => true

/-- The callback holds the lock. -/
def Thread.locked (l : Lock) : Thread → Bool
  | .write _ _ pc => pc.locked l
  | .transmit _ (.packet _ _ _ pc) => pc.locked l
  | .enable _ _ pc => pc.locked l
  | .cleanup _ pc => pc.locked l
  | .d0Exit pc => pc.locked l
  | _ => false

theorem Thread.locked_eq_false (hkind : th.kind ∉ [.write, .transmit, .enable, .cleanup, .d0Exit]) (l : Lock) :
    th.locked l = false := by
  cases th <;> first | rfl | simp [Thread.kind] at hkind

/-! ### Steps -/

/-- What a step does to a lock: nothing, or it takes the free lock, or drops its own. -/
def LockStep (l : Lock) (t : ThreadId) (before : Bool) (d : Device) (after : Bool) (d' : Device) : Prop :=
  after = before ∧ d'.lock l = d.lock l ∨
    before = false ∧ after = true ∧ d.lock l = none ∧ d'.lock l = some t ∨
    before = true ∧ after = false ∧ d'.lock l = none

namespace LockStep

variable {before after : Bool}

theorem keep (hsame : after = before) (hlock : d'.lock l = d.lock l) : LockStep l t before d after d' :=
  .inl ⟨hsame, hlock⟩

theorem take (hbefore : before = false) (hafter : after = true) (hfree : d.lock l = none)
    (hlock : d'.lock l = some t) : LockStep l t before d after d' :=
  .inr (.inl ⟨hbefore, hafter, hfree, hlock⟩)

theorem drop (hbefore : before = true) (hafter : after = false) (hlock : d'.lock l = none) :
    LockStep l t before d after d' :=
  .inr (.inr ⟨hbefore, hafter, hlock⟩)

end LockStep

theorem Thread.finish_lock (th : Thread) (d : Device) (l : Lock) : (th.finish d).lock l = d.lock l := by
  cases th with
  | queueStop isTransmit pc => cases isTransmit <;> cases l <;> rfl
  | _ => cases l <;> rfl

theorem LockStep.settle {π : Type} {inside : π → Thread} {result : Device × Flow π Unit}
    (h : LockStep l t (th.locked l) d (result.2.on (fun pc => (inside pc).locked l) false) result.1) :
    LockStep l t (th.locked l) d ((th.settle inside result).2.locked l) (th.settle inside result).1 := by
  obtain ⟨d', flow⟩ := result
  cases flow with
  | run pc => exact h
  | ret value =>
    change LockStep l t _ d false (th.finish d')
    unfold LockStep at h ⊢
    rw [th.finish_lock]
    exact h

section
variable (l)

theorem evtIoWrite_lock {input : WriteInput} {pc : WritePc} {flow : Flow WritePc Unit}
    (hstep : evtIoWrite d t h input choice pc = some (d', flow)) :
    LockStep l t (pc.locked l) d (flow.on (WritePc.locked l) false) d' := by
  cases pc with
  | lock =>
    simp only [evtIoWrite] at hstep
    split at hstep <;> cases hstep
    cases l with
    | write => exact .take rfl rfl ‹_› rfl
    | _ => exact .keep rfl rfl
  | unlock =>
    cases hstep
    cases l with
    | write => exact .drop rfl rfl rfl
    | _ => exact .keep rfl rfl
  | lifecycle | tryAdmit | capacity | allocate | enqueue | completeAccepted =>
    simp only [evtIoWrite] at hstep
    repeat' split at hstep
    all_goals
      cases hstep
      cases l <;> exact .keep rfl rfl
  | _ =>
    cases hstep
    cases l <;> exact .keep rfl rfl

theorem capturePacket_lock {gen : Word} {f : Frame} {pc : PacketPc} {flow : Flow PacketPc Bool}
    (hstep : capturePacket d t passive gen f choice pc = (d', flow)) :
    LockStep l t (pc.locked l) d (flow.on (PacketPc.locked l) false) d' := by
  cases pc with
  | lockDirect =>
    simp only [capturePacket] at hstep
    split at hstep <;> cases hstep
    · cases l with
      | direct => exact .take rfl rfl ‹_› rfl
      | _ => exact .keep rfl rfl
    · cases l <;> exact .keep rfl rfl
  | unlockDirect delivered =>
    cases delivered <;> cases hstep
    all_goals
      cases l with
      | direct => exact .drop rfl rfl rfl
      | _ => exact .keep rfl rfl
  | store adaptive pc =>
    obtain ⟨core, capture, log, hframe⟩ := enqueueExistingCaptureFrame_frame d t f pc
    obtain ⟨⟨d₁, flow₁⟩, hstore⟩ : ∃ result, enqueueExistingCaptureFrame d t f pc = result := ⟨_, rfl⟩
    rw [hstore] at hframe
    rw [capturePacket, hstore] at hstep
    cases flow₁ <;> cases hstep <;> cases hframe <;> cases l <;> exact .keep rfl rfl
  | complete r =>
    simp only [capturePacket, completeCapturedFrameToRead] at hstep
    repeat' split at hstep
    all_goals
      cases hstep
      cases l <;> exact .keep rfl rfl
  | retrieve =>
    simp only [capturePacket, retrieveNextRequest] at hstep
    split at hstep
    · cases hstep
      cases l <;> exact .keep rfl rfl
    · rename_i hretrieved
      split at hretrieved <;> cases hretrieved
      cases hstep
      cases l <;> exact .keep rfl rfl
  | adaptive | directAdaptive | directLifecycle | directOwner | allocate | lifecycle | owner =>
    simp only [capturePacket] at hstep
    cases hstep
    split <;> cases l <;> exact .keep rfl rfl
  | _ =>
    cases hstep
    cases l <;> exact .keep rfl rfl

theorem advanceTransmit_lock {pc : TxPc} {flow : Flow TxPc Unit}
    (hstep : advanceTransmit d t passive choice pc = (d', flow)) :
    LockStep l t ((Thread.transmit passive pc).locked l) d
      (flow.on (fun pc => (Thread.transmit passive pc).locked l) false) d' := by
  cases pc with
  | packet gen captured f pc =>
    obtain ⟨⟨d₁, flow₁⟩, hpacket⟩ : ∃ result, capturePacket d t passive gen f choice pc = result := ⟨_, rfl⟩
    rw [advanceTransmit, hpacket] at hstep
    cases flow₁ <;> cases hstep <;> exact capturePacket_lock l hpacket
  | lease =>
    simp only [advanceTransmit] at hstep
    split at hstep <;> cases hstep <;> cases l <;> exact .keep rfl rfl
  | lifecycle | ring =>
    simp only [advanceTransmit] at hstep
    cases hstep
    split <;> cases l <;> exact .keep rfl rfl
  | _ =>
    cases hstep
    cases l <;> exact .keep rfl rfl

theorem handleEnableAdaptivePolling_lock {input : EnableInput} {pc : EnablePc} {flow : Flow EnablePc Unit}
    (hstep : handleEnableAdaptivePolling d t h input pc = some (d', flow)) :
    LockStep l t (pc.locked l) d (flow.on (EnablePc.locked l) false) d' := by
  cases pc with
  | lockDirect =>
    simp only [handleEnableAdaptivePolling] at hstep
    split at hstep <;> cases hstep
    · cases l with
      | direct => exact .take rfl rfl ‹_› rfl
      | _ => exact .keep rfl rfl
    · cases l <;> exact .keep rfl rfl
  | lifecycle =>
    simp only [handleEnableAdaptivePolling] at hstep
    split at hstep
    · split at hstep <;> cases hstep
      · cases l <;> exact .keep rfl rfl
      · cases l with
        | state => exact .take rfl rfl ‹_› rfl
        | _ => exact .keep rfl rfl
    · cases hstep
  | adaptive | pendingReads | directReadClaims =>
    simp only [handleEnableAdaptivePolling] at hstep
    split at hstep <;> cases hstep
    · cases l with
      | state => exact .drop rfl rfl rfl
      | _ => exact .keep rfl rfl
    · cases l <;> exact .keep rfl rfl
  | store =>
    cases hstep
    cases l with
    | state => exact .drop rfl rfl rfl
    | _ => exact .keep rfl rfl
  | unlockDirect =>
    cases hstep
    cases l with
    | direct => exact .drop rfl rfl rfl
    | _ => exact .keep rfl rfl
  | validate =>
    simp only [handleEnableAdaptivePolling] at hstep
    cases hstep
    split <;> cases l <;> exact .keep rfl rfl
  | _ =>
    cases hstep
    cases l <;> exact .keep rfl rfl

theorem evtFileCleanup_lock {pc : CleanupPc} {flow : Flow CleanupPc Unit}
    (hstep : evtFileCleanup d t h choice pc = some (d', flow)) :
    LockStep l t (pc.locked l) d (flow.on (CleanupPc.locked l) false) d' := by
  cases evtFileCleanup_cases hstep with
  -- the path takes or drops one lock and leaves the other two
  | retire hlock | shouldResume owns hlock | lockDirect owns hlock | lockWrite owns hlock =>
    cases l <;> first | exact .take rfl rfl hlock rfl | exact .keep rfl rfl
  | claim | decline | releaseControl | releaseControlClosed | unlockWrite | unlockDirect | unlockDirectFirst =>
    cases l <;> first | exact .drop rfl rfl rfl | exact .keep rfl rfl
  | _ => cases l <;> exact .keep rfl rfl

theorem evtDeviceD0Exit_lock {pc : D0ExitPc} {flow : Flow D0ExitPc Unit}
    (hstep : evtDeviceD0Exit d t choice pc = some (d', flow)) :
    LockStep l t (pc.locked l) d (flow.on (D0ExitPc.locked l) false) d' := by
  cases evtDeviceD0Exit_cases hstep with
  | zeroReads hlock | lockDirect hlock | lockWrite hlock =>
    cases l <;> first | exact .take rfl rfl hlock rfl | exact .keep rfl rfl
  | disarm | unlockWrite | unlockDirect =>
    cases l <;> first | exact .drop rfl rfl rfl | exact .keep rfl rfl
  | _ => cases l <;> exact .keep rfl rfl

end

theorem Frames.lock {k : Kind} (h : Frames k d d') (hk : k ∉ [.write, .transmit, .enable, .cleanup, .d0Exit])
    (l : Lock) : d'.lock l = d.lock l := by
  simp only [List.mem_cons, List.not_mem_nil, or_false, not_or] at hk
  cases l with
  | state => exact h.stateLock (by simp [hk])
  | direct => exact h.legacyDirectReadLock (by simp [hk])
  | write => exact h.writeLifetimeLock (by simp [hk])

theorem stepThread_lock {next : Device × Thread} (hstep : stepThread d t choice th = some next) (l : Lock) :
    LockStep l t (th.locked l) d (next.2.locked l) next.1 := by
  by_cases hkind : th.kind ∈ [.write, .transmit, .enable, .cleanup, .d0Exit]
  · cases th <;> simp [Thread.kind] at hkind
    case write h input pc =>
      obtain ⟨⟨d', flow⟩, hresult, rfl⟩ := Option.map_eq_some_iff.mp hstep
      exact .settle (evtIoWrite_lock l hresult)
    case transmit passive pc =>
      cases hstep
      exact .settle (advanceTransmit_lock l rfl)
    case enable h input pc =>
      obtain ⟨⟨d', flow⟩, hresult, rfl⟩ := Option.map_eq_some_iff.mp hstep
      exact .settle (handleEnableAdaptivePolling_lock l hresult)
    case cleanup h pc =>
      obtain ⟨⟨d', flow⟩, hresult, rfl⟩ := Option.map_eq_some_iff.mp hstep
      exact .settle (evtFileCleanup_lock l hresult)
    case d0Exit pc =>
      obtain ⟨⟨d', flow⟩, hresult, rfl⟩ := Option.map_eq_some_iff.mp hstep
      exact .settle (evtDeviceD0Exit_lock l hresult)
  · have hnext : next.2.kind ∉ [.write, .transmit, .enable, .cleanup, .d0Exit] := by
      obtain hend | hsame := stepThread_kind hstep
      · rw [hend]
        decide
      · rwa [hsame]
    refine .keep ?_ ((stepThread_frames hstep).lock hkind l)
    rw [Thread.locked_eq_false hnext, Thread.locked_eq_false hkind]

/-! ### Runs -/

/-- Each lock names exactly the callback that holds it, or a holder outside the driver's own callbacks. -/
def LocksOwned (outside : Lock → Option ThreadId) (s : Driver) : Prop :=
  ∀ l t, s.dev.lock l = some t ↔ (s.thr t).locked l = true ∨ outside l = some t

namespace LocksOwned

variable {outside : Lock → Option ThreadId} {s s' : Driver}

/-- A thread changes, with what `LockStep` says of the locks. -/
theorem set (h : LocksOwned outside s) (houtside : ∀ l, outside l ≠ some t)
    (hlock : ∀ l, LockStep l t ((s.thr t).locked l) s.dev (th.locked l) d) :
    LocksOwned outside (s.setThread t d th) := by
  intro l i
  rw [Driver.setThread_dev]
  by_cases hit : i = t
  · subst hit
    rw [Driver.setThread_self, or_iff_left (houtside l)]
    have hbefore := h l i
    rw [or_iff_left (houtside l)] at hbefore
    obtain ⟨hsame, hdev⟩ | ⟨-, hafter, -, hdev⟩ | ⟨-, hafter, hdev⟩ := hlock l
    · rw [hsame, hdev, hbefore]
    · rw [hdev, hafter]
      exact iff_of_true rfl rfl
    · rw [hdev, hafter]
      exact iff_of_false nofun nofun
  · rw [Driver.setThread_of_ne _ _ _ _ hit, ← h l i]
    obtain ⟨-, hdev⟩ | ⟨-, -, hfree, hdev⟩ | ⟨hmine, -, hdev⟩ := hlock l
    · rw [hdev]
    · rw [hdev, hfree]
      exact iff_of_false (fun heq => hit (Option.some.inj heq).symm) nofun
    · rw [hdev, (h l t).mpr (.inl hmine)]
      exact iff_of_false nofun fun heq => hit (Option.some.inj heq).symm

/-- The locks and the parts in them stay. -/
theorem same (h : LocksOwned outside s) (hth : ∀ l, th.locked l = (s.thr t).locked l)
    (hdev : ∀ l, d.lock l = s.dev.lock l) : LocksOwned outside (s.setThread t d th) := by
  intro l i
  rw [Driver.setThread_dev, hdev, s.setThread_keep t d th (f := Thread.locked l) (hth l) i]
  exact h l i

theorem step (h : LocksOwned outside s) {a : Action} (houtside : ∀ t, t ∈ a.thread → ∀ l, outside l ≠ some t)
    (hstep : stepDriver s a = some s') : LocksOwned outside s' := by
  cases stepDriver_cases hstep with
  | @start t a d th hidle hstart =>
    refine h.same (fun l => ?_) fun l => ?_
    · rw [hidle]
      cases hstart <;> cases l <;> rfl
    · obtain ⟨_, _, _, _, _, _, _, _, hframe⟩ := hstart.frame
      rw [hframe]
      cases l <;> rfl
  | @framework a d hmove =>
    rw [s.setDev_eq 0]
    refine h.same (fun l => rfl) fun l => ?_
    cases hmove <;> cases l <;> rfl
  | @packet t length passive gen captured hthr hlength =>
    refine h.same (fun l => ?_) fun l => ?_
    · rw [hthr]
      cases l <;> rfl
    · cases l <;> rfl
  | @advance t choice next hadvance => exact h.set (houtside t rfl) (stepThread_lock hadvance)

end LocksOwned

/-- In a run of the driver alone a lock names exactly the callback that holds it. -/
theorem DriverReach.locksOwned {ok : Driver → Action → Prop} {s : Driver} (h : DriverReach ok s) :
    LocksOwned (fun _ => none) s := by
  refine h.invariant (fun s hinit => ?_) fun _ _ _ _ hinv _ hstep => hinv.step (fun _ _ _ => nofun) hstep
  intro l t
  obtain ⟨⟨mtu, -, -, hdev⟩, hidle⟩ := hinit
  rw [hidle t, hdev]
  cases l <;> exact iff_of_false nofun (by rintro (h | h) <;> cases h)

end WinTap
