import WinTap.Proof.Driver.Owner
import WinTap.Proof.Driver.QueueStates
import WinTap.Proof.Driver.Traffic

/-!
# The instance opens at rest

A callback of the capture direction goes near a frame only after it found the lifecycle open under its lease. Two
operations open the lifecycle: the end of a cleanup and D0 entry. Both come after a wait for the leases and after the
queue was emptied, and what happened since then is what has to be looked at. The closers of the leases are no
protection, because another cleanup may release the one of the owner. It is the lifecycle itself that keeps callbacks
out, and the locks and the control device keep it from being opened and claimed again in between. So whenever the
lifecycle opens, no callback is past its check and the capture queue is empty.
-/

namespace WinTap

variable {d : Device} {t : ThreadId} {choice : Choice} {P : Thread → Bool} {th : Thread} {next : Device × Thread}
  {gen : Word} {ok : Driver → Action → Prop} {s s' : Driver} {a : Action} {l : Lifecycle}

/-! ### A step as a callback sees it -/

/-- How a callback comes to where it is after a step of the driver. -/
inductive Moves (s : Driver) (a : Action) (s' : Driver) (t : ThreadId) : Prop
  | stays (ht : t ∉ a.thread) (hthr : s'.thr t = s.thr t)
  | starts {d : Device} {th : Thread} (hstart : Start s.dev t a d th) (hthr : s'.thr t = th)
  | packet {length : Nat} {passive : Bool} {gen : Word} {captured : Bool} (ha : a = .packet t length)
    (hbefore : s.thr t = .transmit passive (.ring gen captured))
    (hthr : s'.thr t = .transmit passive (.packet gen captured ⟨s.dev.nextSerial, length⟩ .adaptive))
  | advances {choice : Choice} (ha : a = .advance t choice)
    (hadvance : stepThread s.dev t choice (s.thr t) = some (s'.dev, s'.thr t))

/-- A step that is not one of a callback leaves alone what the callbacks work on. -/
structure Unworked (d d' : Device) : Prop where
  lifecycle : d'.lifecycle = d.lifecycle
  ownerGeneration : d'.ownerGeneration = d.ownerGeneration
  queued : d'.queued .capture = d.queued .capture
  departed : d'.departed .capture = d.departed .capture

theorem stepDriver_moves (hstep : stepDriver s a = some s') (t : ThreadId) : Moves s a s' t := by
  by_cases ht : t ∈ a.thread
  swap
  · exact .stays ht (stepDriver_other hstep ht)
  cases stepDriver_cases hstep with
  | @start u a d th hidle hstart =>
    have htu : t = u := by cases hstart <;> exact (Option.some.inj ht).symm
    subst htu
    exact .starts hstart (Driver.setThread_self ..)
  | framework hmove => cases hmove <;> cases ht
  | packet hthr _ =>
    cases ht
    exact .packet rfl hthr (Driver.setThread_self ..)
  | advance hadvance =>
    cases ht
    refine .advances rfl ?_
    rw [Driver.setThread_self]
    exact hadvance

theorem stepDriver_works (hstep : stepDriver s a = some s') :
    Unworked s.dev s'.dev ∨ ∃ t choice, a = .advance t choice ∧
      stepThread s.dev t choice (s.thr t) = some (s'.dev, s'.thr t) := by
  cases stepDriver_cases hstep with
  | start _ hstart =>
    obtain ⟨_, _, _, _, _, _, _, _, hframe⟩ := hstart.frame
    rw [Driver.setThread_dev, hframe]
    exact .inl ⟨rfl, rfl, rfl, rfl⟩
  | framework hmove => cases hmove <;> exact .inl ⟨rfl, rfl, rfl, rfl⟩
  | packet _ _ => exact .inl ⟨rfl, rfl, rfl, rfl⟩
  | @advance t choice next hadvance =>
    refine .inr ⟨t, choice, rfl, ?_⟩
    rw [Driver.setThread_self]
    exact hadvance

/-- A callback that has come to a place where none starts was there before, or has just got there. -/
theorem Moves.reached (h : Moves s a s' t) (hstart : ∀ {d th}, Start s.dev t a d th → P th = false)
    (hpacket : ∀ passive pc, P (.transmit passive pc) = false) (hafter : P (s'.thr t) = true) :
    t ∉ a.thread ∧ P (s.thr t) = true ∨ ∃ choice, a = .advance t choice ∧
      stepThread s.dev t choice (s.thr t) = some (s'.dev, s'.thr t) := by
  cases h with
  | stays ht hthr => exact .inl ⟨ht, hthr ▸ hafter⟩
  | starts hstarts hthr =>
    rw [hthr, hstart hstarts] at hafter
    cases hafter
  | packet ha hbefore hthr =>
    rw [hthr, hpacket] at hafter
    cases hafter
  | advances ha hadvance => exact .inr ⟨_, ha, hadvance⟩

theorem stepThread_kind_before {k : Kind} (hstep : stepThread d t choice th = some next)
    (hP : ∀ {th}, P th = true → th.kind = k) (hidle : P .idle = false) (hafter : P next.2 = true) : th.kind = k := by
  obtain hend | hkind := stepThread_kind hstep
  · rw [hend, hidle] at hafter
    cases hafter
  · exact hkind ▸ hP hafter

/-! ### Past the check -/

def ReadPc.pastCheck : ReadPc → Bool
  | .lease | .lifecycle | .complete _ | .drop | .refuse => false
  | _ => true

def DrainPc.pastCheck : DrainPc → Bool
  | .lease | .lifecycle | .stop => false
  | _ => true

def TxPc.pastCheck : TxPc → Bool
  | .lease | .lifecycle | .drop => false
  | _ => true

/-- The callback found the instance open under its capture lease, and may yet come to a frame. -/
def Thread.pastCheck : Thread → Bool
  | .read _ pc => pc.pastCheck
  | .worker (.drain pc) => pc.pastCheck
  | .transmit _ pc => pc.pastCheck
  | _ => false

/-- The owner generation that a TX callback has read. -/
def Thread.capturesFor : Thread → Option Word
  | .transmit _ pc => pc.ownerGeneration
  | _ => none

theorem Thread.lease_of_pastCheck (h : th.pastCheck = true) : 1 ≤ th.leases .capture := by
  cases th with
  | read r pc =>
    change 1 ≤ pc.leases
    cases pc <;> first | exact le_rfl | exact Nat.le_add_right 1 _ | cases h
  | worker pc =>
    cases pc with
    | wait pc => cases h
    | drain pc =>
      change 1 ≤ pc.leases
      cases pc <;> first | exact le_rfl | exact Nat.le_add_right 1 _ | cases h
  | transmit passive pc => cases pc <;> first | exact le_rfl | cases h
  | _ => cases h

theorem Thread.pastCheck_of_inHand {f : Frame} (h : th.inHand .capture = some f) : th.pastCheck = true := by
  cases th with
  | read r pc => cases pc <;> first | rfl | cases h
  | worker pc =>
    cases pc with
    | wait pc => cases h
    | drain pc => cases pc <;> first | rfl | cases h
  | transmit passive pc => cases pc <;> first | rfl | cases h
  | _ => cases h

theorem Thread.pastCheck_of_capturesFor (h : th.capturesFor = some gen) : th.pastCheck = true := by
  cases th with
  | transmit passive pc => cases pc <;> first | rfl | cases h
  | _ => cases h

section
variable (d t choice)

theorem evtIoRead_pastCheck (r : Read) (pc : ReadPc)
    (h : (evtIoRead d t r choice pc).2.on ReadPc.pastCheck false = true) :
    pc.pastCheck = true ∨ d.lifecycle = .instanceOpen ∧ (evtIoRead d t r choice pc).2 = .run .owner := by
  cases pc with
  | lease =>
    simp only [evtIoRead] at h
    split at h <;> cases h
  | lifecycle =>
    simp only [evtIoRead] at h ⊢
    split at h
    · cases h
    · exact .inr ⟨not_not.mp ‹_›, if_neg ‹_›⟩
  | complete | drop | refuse => cases h
  | _ => exact .inl rfl

theorem evtReadCompletionWorkItem_pastCheck (pc : WorkPc)
    (h : (evtReadCompletionWorkItem d t choice pc).2.on (fun pc => (Thread.worker pc).pastCheck) false = true) :
    (Thread.worker pc).pastCheck = true ∨
      d.lifecycle = .instanceOpen ∧ (evtReadCompletionWorkItem d t choice pc).2 = .run (.drain .owner) := by
  cases pc with
  | wait pc =>
    cases h.symm.trans (call_on (y := false) (fun _ => rfl) fun took => by cases took <;> rfl)
  | drain pc =>
    cases pc with
    | lease =>
      simp only [evtReadCompletionWorkItem, drainReads] at h
      split at h <;> cases h
    | lifecycle =>
      simp only [evtReadCompletionWorkItem, drainReads] at h ⊢
      split at h
      · cases h
      · exact .inr ⟨not_not.mp ‹_›, by rw [if_neg ‹_›]; rfl⟩
    | stop => cases h
    | _ => exact .inl rfl

theorem advanceTransmit_pastCheck (passive : Bool) (pc : TxPc)
    (h : (advanceTransmit d t passive choice pc).2.on TxPc.pastCheck false = true) :
    pc.pastCheck = true ∨ d.lifecycle = .instanceOpen ∧ (advanceTransmit d t passive choice pc).2 = .run .owner := by
  cases pc with
  | lease =>
    simp only [advanceTransmit] at h
    split at h <;> cases h
  | lifecycle =>
    simp only [advanceTransmit] at h ⊢
    split at h
    · cases h
    · exact .inr ⟨not_not.mp ‹_›, by rw [if_neg ‹_›]⟩
  | drop => cases h
  | _ => exact .inl rfl

theorem advanceTransmit_reads (passive : Bool) (pc : TxPc)
    (h : (advanceTransmit d t passive choice pc).2.on TxPc.ownerGeneration none = some gen) :
    pc.ownerGeneration = some gen ∨ pc = .owner ∧ gen = d.ownerGeneration := by
  cases pc with
  | owner => exact .inr ⟨rfl, (Option.some.inj h).symm⟩
  | packet gen' captured f pc =>
    refine .inl ?_
    simp only [advanceTransmit] at h
    obtain ⟨_, _, hflow⟩ | ⟨_, _, hflow⟩ :=
      call_snd (capturePacket d t passive gen' f choice pc) (TxPc.packet gen' captured f)
        (fun capturedThis => (.run (.ring gen' (captured || capturedThis)) : Flow TxPc Unit)) <;>
      rw [hflow] at h <;> exact h
  | lease | lifecycle | ring =>
    simp only [advanceTransmit] at h
    split at h <;> cases h
  | queueWork | drop => cases h

end

/-- A callback comes past its check only when it finds the instance open, and with nothing in hand. -/
theorem stepThread_pastCheck (hstep : stepThread d t choice th = some next) (hafter : next.2.pastCheck = true) :
    th.pastCheck = true ∨
      d.lifecycle = .instanceOpen ∧ next.2.inHand .capture = none ∧ next.2.capturesFor = none := by
  have hsettle : ∀ {π : Type} {inside : π → Thread} {result : Device × Flow π Unit} (owner : π),
      (inside owner).inHand .capture = none ∧ (inside owner).capturesFor = none →
      (result.2.on (fun pc => (inside pc).pastCheck) false = true →
        th.pastCheck = true ∨ d.lifecycle = .instanceOpen ∧ result.2 = .run owner) →
      (th.settle inside result).2.pastCheck = true → th.pastCheck = true ∨ d.lifecycle = .instanceOpen ∧
        (th.settle inside result).2.inHand .capture = none ∧ (th.settle inside result).2.capturesFor = none := by
    intro π inside result owner howner hresult hpast
    rw [Thread.settle_eq] at hpast ⊢
    cases hflow : result.2 with
    | run pc =>
      rw [hflow] at hpast hresult
      refine (hresult hpast).imp_right fun ⟨hopen, hnext⟩ => ⟨hopen, ?_⟩
      cases hnext
      exact howner
    | ret value =>
      rw [hflow] at hpast
      cases hpast
  cases th with
  | read r pc =>
    cases hstep
    exact hsettle .owner ⟨rfl, rfl⟩ (evtIoRead_pastCheck d t choice r pc) hafter
  | transmit passive pc =>
    cases hstep
    exact hsettle .owner ⟨rfl, rfl⟩ (advanceTransmit_pastCheck d t choice passive pc) hafter
  | worker pc =>
    cases hstep
    exact hsettle (.drain .owner) ⟨rfl, rfl⟩ (evtReadCompletionWorkItem_pastCheck d t choice pc) hafter
  | _ =>
    obtain hend | hkind := stepThread_kind hstep
    · rw [hend] at hafter
      cases hafter
    · cases hnext : next.2 <;> rw [hnext] at hkind hafter <;> first | cases hafter | cases hkind

theorem stepThread_capturesFor (hstep : stepThread d t choice th = some next) (hafter : next.2.capturesFor = some gen) :
    th.capturesFor = some gen ∨ (∃ passive, th = .transmit passive .owner) ∧ gen = d.ownerGeneration := by
  cases th with
  | transmit passive pc =>
    cases hstep
    rw [Thread.settle_eq] at hafter
    cases hflow : (advanceTransmit d t passive choice pc).2 with
    | run pc' =>
      rw [hflow] at hafter
      obtain hbefore | ⟨rfl, hgen⟩ :=
        advanceTransmit_reads d t choice passive pc (by rw [hflow]; exact hafter)
      · exact .inl hbefore
      · exact .inr ⟨⟨passive, rfl⟩, hgen⟩
    | ret value =>
      rw [hflow] at hafter
      cases hafter
  | _ =>
    obtain hend | hkind := stepThread_kind hstep
    · rw [hend] at hafter
      cases hafter
    · cases hnext : next.2 <;> rw [hnext] at hkind hafter <;> first | cases hafter | cases hkind

/-! ### At rest -/

/-- No callback of the capture direction is past its check. -/
def Driver.Still (s : Driver) : Prop := ∀ t, (s.thr t).pastCheck = false

namespace Driver.Still

theorem absurd (h : s.Still) (ht : (s.thr t).pastCheck = true) {p : Prop} : p :=
  (Bool.false_ne_true ((h t).symm.trans ht)).elim

theorem of_drained (hcounted : LeasesCounted s) (hzero : leaseCount (s.dev.leases.word .capture) = 0) : s.Still := by
  intro t
  refine Bool.eq_false_iff.mpr fun hpast => ?_
  have hlease := Thread.lease_of_pastCheck hpast
  have hcount := (hcounted .capture).le t
  omega

/-- While the instance is not open nobody comes past the check. -/
theorem step (h : s.Still) (hclosed : s.dev.lifecycle ≠ .instanceOpen) (hstep : stepDriver s a = some s') :
    s'.Still := by
  intro t
  refine Bool.eq_false_iff.mpr fun hpast => ?_
  cases stepDriver_moves hstep t with
  | stays _ hthr => exact h.absurd (hthr ▸ hpast)
  | starts hstart hthr =>
    rw [hthr] at hpast
    cases hstart <;> cases hpast
  | packet _ hbefore _ => exact h.absurd (t := t) (by rw [hbefore]; rfl)
  | advances _ hadvance =>
    exact (stepThread_pastCheck hadvance hpast).elim (fun hbefore => h.absurd hbefore) fun hopen => hclosed hopen.1

theorem queued (h : s.Still) (hstep : stepDriver s a = some s') (hempty : s.dev.queued .capture = []) :
    s'.dev.queued .capture = [] := by
  obtain hunworked | ⟨t, choice, -, hadvance⟩ := stepDriver_works hstep
  · rw [hunworked.queued, hempty]
  · refine List.eq_nil_iff_forall_not_mem.mpr fun f hf => ?_
    obtain hbefore | hhand := (stepThread_capture_lane hadvance).pool_from hf
    · rw [hempty] at hbefore
      cases hbefore
    · exact h.absurd (Thread.pastCheck_of_inHand hhand)

end Driver.Still

/-! ### The opening paths -/

/-- D0 entry has not opened the lifecycle yet. -/
def Thread.enters : Thread → Bool
  | .d0Entry (.readmitCallbacks _) => false
  | .d0Entry _ => true
  | _ => false

/-- The cleanup took the lifecycle and has waited out the leases, and may open the lifecycle again. -/
def CleanupPc.mayReopen : CleanupPc → Bool
  | .lockDirect owns | .lockWrite owns | .adaptive owns | .teardown owns _ _ | .flush owns _ | .purge owns _
  | .clear owns _ | .shouldResume owns => owns
  | .zeroReads resumes | .zeroWrites resumes | .disableAdaptive resumes | .releaseControl resumes => resumes
  | .reopen _ | .resume => true
  | _ => false

/-- And it found the lifecycle as it had left it. -/
def Thread.willReopen : Thread → Bool
  | .cleanup _ (.zeroReads resumes) | .cleanup _ (.zeroWrites resumes) | .cleanup _ (.disableAdaptive resumes)
  | .cleanup _ (.releaseControl resumes) => resumes
  | .cleanup _ (.reopen _) | .cleanup _ .resume => true
  | _ => false

/-- The callback has closed the lifecycle to this value and waited out the capture leases, and it or the D0 entry to
come may open the lifecycle again. -/
def Thread.rests : Lifecycle → Thread → Bool
  | .instanceOwnerClosing, .cleanup _ pc => pc.mayReopen
  | .instanceSuspended, .d0Exit pc => pc.drained .capture
  | .instanceSuspended, th => th.enters
  | _, _ => false

/-- The capture queue was reopened, and the lifecycle comes next. -/
def Thread.emptied : Thread → Bool
  | .cleanup _ (.reopen .captureGeneration) | .cleanup _ .resume => true
  | .d0Entry (.reopen .captureGeneration) | .d0Entry .openLifecycle => true
  | _ => false

theorem Thread.kind_of_enters (h : th.enters = true) : th.kind = .d0Entry := by
  cases th <;> first | rfl | cases h

theorem Thread.kind_of_willReopen (h : th.willReopen = true) : th.kind = .cleanup := by
  cases th <;> first | rfl | cases h

theorem Thread.rests_of_enters (h : th.enters = true) : th.rests .instanceSuspended = true := by
  cases th <;> first | exact h | cases h

theorem Thread.rests_of_willReopen (h : th.willReopen = true) : th.rests .instanceOwnerClosing = true := by
  cases th with
  | cleanup handle pc => cases pc <;> first | exact h | cases h
  | _ => cases h

theorem Thread.ne_open_of_rests (h : th.rests l = true) : l ≠ .instanceOpen := by
  rintro rfl
  cases h

theorem Thread.suspended_of_rests (h : th.rests .instanceSuspended = true) : th.suspended = true := by
  cases th with
  | d0Entry pc | d0Exit pc => cases pc <;> first | rfl | cases h
  | _ => cases h

theorem Thread.closing_of_rests (h : th.rests l = true) : l = .instanceSuspended ∨ l = .instanceOwnerClosing := by
  cases l <;> first | exact .inl rfl | exact .inr rfl | cases h

theorem Thread.locked_of_willReopen (h : th.willReopen = true) : th.locked .direct = true := by
  cases th with
  | cleanup handle pc => cases pc <;> first | rfl | cases h
  | _ => cases h

/-- Until it has looked at the lifecycle again, the cleanup has the control device. -/
theorem Thread.claims_of_rests (h : th.rests .instanceOwnerClosing = true) :
    th.willReopen = true ∨ th.claims = true := by
  cases th with
  | cleanup handle pc => cases pc <;> first | exact .inl h | exact .inr rfl
  | _ => cases h

/-- A callback comes to rest after its wait for the leases, with the lifecycle as it is. -/
theorem stepThread_rests (hstep : stepThread d t choice th = some next) (hafter : next.2.rests l = true) :
    (th.rests l = true ∨ leaseCount (d.leases.word .capture) = 0) ∧ next.1.lifecycle = d.lifecycle := by
  cases th with
  | cleanup h pc =>
    obtain ⟨⟨d', flow⟩, hcleanup, rfl⟩ := Option.map_eq_some_iff.mp hstep
    cases evtFileCleanup_cases hcleanup with
    | drainCapture owns hcount => exact ⟨.inr hcount, rfl⟩
    | shouldResume owns hlock =>
      refine ⟨.inl ?_, rfl⟩
      cases owns <;> cases l <;> first | rfl | cases hafter
    | _ => cases l <;> first | exact ⟨.inl hafter, rfl⟩ | exact ⟨.inl rfl, rfl⟩ | cases hafter
  | d0Exit pc =>
    obtain ⟨⟨d', flow⟩, hexit, rfl⟩ := Option.map_eq_some_iff.mp hstep
    cases evtDeviceD0Exit_cases hexit with
    | drainCapture hcount => exact ⟨.inr hcount, rfl⟩
    | _ => cases l <;> first | exact ⟨.inl rfl, rfl⟩ | cases hafter
  | d0Entry pc =>
    obtain ⟨⟨d', flow⟩, hentry, rfl⟩ := Option.map_eq_some_iff.mp hstep
    cases evtDeviceD0Entry_cases hentry <;> cases l <;> first | exact ⟨.inl rfl, rfl⟩ | cases hafter
  | _ =>
    obtain hend | hkind := stepThread_kind hstep
    · rw [hend] at hafter
      cases l <;> cases hafter
    · cases hnext : next.2 <;> rw [hnext] at hkind hafter <;> cases l <;> first | cases hafter | cases hkind

/-- The last step before the lifecycle is to reopen the capture queue. -/
theorem stepThread_emptied (hstep : stepThread d t choice th = some next) (hrests : next.2.rests l = true)
    (hafter : next.2.emptied = true) : th.rests l = true ∧ th.emptied = true ∨ next.1.queued .capture = [] := by
  cases th with
  | cleanup h pc =>
    obtain ⟨⟨d', flow⟩, hcleanup, rfl⟩ := Option.map_eq_some_iff.mp hstep
    cases evtFileCleanup_cases hcleanup with
    | reopenCaptureGeneration => cases l <;> first | exact .inl ⟨rfl, rfl⟩ | cases hrests
    | reopenCapture => exact .inr rfl
    | _ => cases hafter
  | d0Entry pc =>
    obtain ⟨⟨d', flow⟩, hentry, rfl⟩ := Option.map_eq_some_iff.mp hstep
    cases evtDeviceD0Entry_cases hentry with
    | reopenCaptureGeneration => cases l <;> first | exact .inl ⟨rfl, rfl⟩ | cases hrests
    | reopenCapture => exact .inr rfl
    | _ => cases hafter
  | _ =>
    obtain hend | hkind := stepThread_kind hstep
    · rw [hend] at hafter
      cases hafter
    · cases hnext : next.2 <;> rw [hnext] at hkind hafter <;> first | cases hafter | cases hkind

theorem stepThread_willReopen (hstep : stepThread d t choice th = some next) (hafter : next.2.willReopen = true) :
    th.willReopen = true ∨ d.lifecycle = .instanceOwnerClosing := by
  have hkind : th.kind = .cleanup := stepThread_kind_before hstep Thread.kind_of_willReopen rfl hafter
  cases th <;> cases hkind
  obtain ⟨⟨d', flow⟩, hcleanup, rfl⟩ := Option.map_eq_some_iff.mp hstep
  cases evtFileCleanup_cases hcleanup with
  | shouldResume owns hlock =>
    have hresume : (owns = true ∧ d.lifecycle = .instanceOwnerClosing) ∧ d.adapter = true := by
      simpa [Thread.settle, Thread.willReopen] using hafter
    exact .inr hresume.1.2
  | _ => first | exact .inl hafter | exact .inl rfl

theorem stepThread_enters (hstep : stepThread d t choice th = some next) (hafter : next.2.enters = true) :
    th.enters = true := by
  have hkind : th.kind = .d0Entry := stepThread_kind_before hstep Thread.kind_of_enters rfl hafter
  cases th <;> cases hkind
  obtain ⟨⟨d', flow⟩, hentry, rfl⟩ := Option.map_eq_some_iff.mp hstep
  cases evtDeviceD0Entry_cases hentry <;> first | rfl | cases hafter

/-- D0 exit ends at rest, and with the direct-read lock in its hands. -/
theorem stepThread_goes_down (hstep : stepThread d t choice th = some next) (hdown : next.1.power = .down) :
    d.power = .down ∨ th.kind = .d0Exit ∧ th.rests .instanceSuspended = true ∧ th.locked .direct = true := by
  by_cases hk : th.kind ∈ [.d0Entry, .d0Exit]
  · cases th <;> simp [Thread.kind] at hk
    case d0Entry pc =>
      obtain ⟨⟨d', flow⟩, hentry, rfl⟩ := Option.map_eq_some_iff.mp hstep
      cases evtDeviceD0Entry_cases hentry <;> first | exact .inl hdown | cases hdown
    case d0Exit pc =>
      obtain ⟨⟨d', flow⟩, hexit, rfl⟩ := Option.map_eq_some_iff.mp hstep
      cases evtDeviceD0Exit_cases hexit <;> first | exact .inl hdown | exact .inr ⟨rfl, rfl, rfl⟩
  · exact .inl (((stepThread_frames hstep).power hk).symm.trans hdown)

/-- The two ways to open the lifecycle. -/
theorem stepThread_opens (hstep : stepThread d t choice th = some next) (hopen : next.1.lifecycle = .instanceOpen) :
    d.lifecycle = .instanceOpen ∨ th.enters = true ∧ th.emptied = true ∨
      th.willReopen = true ∧ th.emptied = true ∧ d.lifecycle = .instanceOwnerClosing := by
  obtain ⟨hsame, -⟩ | hmove := stepThread_lifecycle hstep
  · exact .inl (hsame.symm.trans hopen)
  · rw [hopen] at hmove
    generalize d.lifecycle = old at hmove
    generalize next.2 = th' at hmove
    cases hmove with
    | resume handle => exact .inr (.inr ⟨rfl, rfl, rfl⟩)
    | enter => exact .inr (.inl ⟨rfl, rfl⟩)

/-! ### Behind the closed lifecycle -/

/-- A D0 entry has to open the lifecycle, now or later. -/
def Driver.Entering (s : Driver) : Prop := s.dev.power = .down ∨ ∃ t, (s.thr t).enters = true

/-- Somebody rests behind this value of the lifecycle. -/
def Driver.Rests (s : Driver) (l : Lifecycle) : Prop :=
  (∃ t, (s.thr t).rests l = true) ∨ l = .instanceSuspended ∧ s.dev.power = .down

/-- While the lifecycle is as a callback left it, nobody has come past the check since that callback waited out the
leases. Once a cleanup has looked, nobody else opens the lifecycle either. -/
structure AtRest (s : Driver) : Prop where
  still : s.Rests s.dev.lifecycle → s.Still
  emptied : ∀ t, (s.thr t).rests s.dev.lifecycle = true → (s.thr t).emptied = true → s.dev.queued .capture = []
  closed : ∀ t, (s.thr t).willReopen = true → s.dev.lifecycle ≠ .instanceOpen ∧ ¬s.Entering

theorem Suspension.not_entering (h : Suspension s) (hnot : s.dev.lifecycle ≠ .instanceSuspended) : ¬s.Entering := by
  rintro (hdown | ⟨t, ht⟩)
  · exact hnot (h.down hdown)
  · exact hnot (h.passing t (Thread.suspended_of_rests (Thread.rests_of_enters ht)))

theorem Suspension.of_rests (h : Suspension s) (hrests : s.Rests .instanceSuspended) :
    s.dev.lifecycle = .instanceSuspended := by
  obtain ⟨t, ht⟩ | ⟨-, hdown⟩ := hrests
  · exact h.passing t (Thread.suspended_of_rests ht)
  · exact h.down hdown

theorem power_before (hstep : stepDriver s a = some s') (hdown : s'.dev.power = .down) :
    s.dev.power = .down ∨ ∃ t ∈ a.thread, (s.thr t).kind = .d0Exit ∧ (s.thr t).rests .instanceSuspended = true ∧
      (s.thr t).locked .direct = true := by
  cases stepDriver_cases hstep with
  | start _ hstart => cases hstart <;> first | exact .inl hdown | cases hdown
  | framework hmove => cases hmove <;> exact .inl hdown
  | packet _ _ => exact .inl hdown
  | advance hadvance => exact (stepThread_goes_down hadvance hdown).imp_right fun hlast => ⟨_, rfl, hlast⟩

theorem entering_before (hstep : stepDriver s a = some s') (h : s'.Entering) :
    s.Entering ∨ ∃ t ∈ a.thread, (s.thr t).kind = .d0Exit ∧ (s.thr t).locked .direct = true := by
  obtain hdown | ⟨t, ht⟩ := h
  · obtain hbefore | ⟨t, hmem, hkind, -, hlocked⟩ := power_before hstep hdown
    · exact .inl (.inl hbefore)
    · exact .inr ⟨t, hmem, hkind, hlocked⟩
  · refine .inl ?_
    cases stepDriver_moves hstep t with
    | stays _ hthr => exact .inr ⟨t, hthr ▸ ht⟩
    | starts hstart hthr =>
      rw [hthr] at ht
      cases hstart <;> first | exact .inl ‹_› | cases ht
    | packet _ _ hthr =>
      rw [hthr] at ht
      cases ht
    | advances _ hadvance => exact .inr ⟨t, stepThread_enters hadvance ht⟩

/-- Whoever rests did so before the step, or has just waited out the leases. -/
theorem rests_before (hstep : stepDriver s a = some s') (h : (s'.thr t).rests l = true) :
    t ∉ a.thread ∧ (s.thr t).rests l = true ∨ s.Rests .instanceSuspended ∧ l = .instanceSuspended ∨
      ((s.thr t).rests l = true ∨ leaseCount (s.dev.leases.word .capture) = 0) ∧
        s'.dev.lifecycle = s.dev.lifecycle := by
  cases stepDriver_moves hstep t with
  | stays ht hthr => exact .inl ⟨ht, hthr ▸ h⟩
  | starts hstart hthr =>
    rw [hthr] at h
    cases hstart <;> cases l <;> first | exact .inr (.inl ⟨.inr ⟨rfl, ‹_›⟩, rfl⟩) | cases h
  | packet _ _ hthr =>
    rw [hthr] at h
    cases l <;> cases h
  | advances _ hadvance => exact .inr (.inr (stepThread_rests hadvance h))

namespace AtRest

variable {t u : ThreadId}

/-- The lifecycle does not come back to what a cleanup left: only the owner of the control device takes it, and only
when it is open. -/
theorem closing_before (h : AtRest s) (hcontrol : ControlOwned s) (hu : u ∉ a.thread)
    (hrests : (s.thr u).rests .instanceOwnerClosing = true) (hstep : stepDriver s a = some s')
    (hclosing : s'.dev.lifecycle = .instanceOwnerClosing) : s.dev.lifecycle = .instanceOwnerClosing := by
  obtain hunworked | ⟨t, choice, rfl, hadvance⟩ := stepDriver_works hstep
  · exact hunworked.lifecycle.symm.trans hclosing
  obtain ⟨hsame, -⟩ | hmove := stepThread_lifecycle hadvance
  · exact hsame.symm.trans hclosing
  rw [hclosing] at hmove
  generalize hthr : s.thr t = th at hmove
  generalize hthr' : s'.thr t = th' at hmove
  generalize hold : s.dev.lifecycle = old at hmove
  cases hmove with
  | close handle =>
    obtain hwill | hclaims := Thread.claims_of_rests hrests
    · exact absurd hold (h.closed u hwill).1
    · obtain ⟨owner, howner, -⟩ := hcontrol.owner
      have hmine : s.Claims (.thread t) := by
        rw [Driver.Claims, hthr]
        rfl
      have hsame := ((howner (.thread u)).mp hclaims).symm.trans ((howner (.thread t)).mp hmine)
      exact absurd (congrArg some (Claim.thread.inj (Option.some.inj hsame))).symm hu

/-- While somebody rests, the lifecycle stays and the callbacks were at rest before. -/
theorem before (h : AtRest s) (hcontrol : ControlOwned s) (hsuspension : Suspension s) (hcounted : LeasesCounted s)
    (hstep : stepDriver s a = some s') (hrests : s'.Rests s'.dev.lifecycle) :
    s.dev.lifecycle = s'.dev.lifecycle ∧ s.dev.lifecycle ≠ .instanceOpen ∧ s.Still := by
  generalize hl : s'.dev.lifecycle = l at hrests
  have hresting : s.Rests l → s.dev.lifecycle = l →
      s.dev.lifecycle = l ∧ s.dev.lifecycle ≠ .instanceOpen ∧ s.Still := by
    intro hbefore hold
    refine ⟨hold, ?_, h.still (hold ▸ hbefore)⟩
    rw [hold]
    exact hbefore.elim (fun ⟨t, ht⟩ => Thread.ne_open_of_rests ht) fun hsuspended =>
      hsuspended.1 ▸ Lifecycle.noConfusion
  have hsuspended : s.Rests .instanceSuspended → l = .instanceSuspended →
      s.dev.lifecycle = l ∧ s.dev.lifecycle ≠ .instanceOpen ∧ s.Still := by
    rintro hbefore rfl
    exact hresting hbefore (hsuspension.of_rests hbefore)
  obtain ⟨t, ht⟩ | ⟨hsuspends, hdown⟩ := hrests
  · obtain ⟨hmem, hbefore⟩ | ⟨hbefore, hsuspends⟩ | ⟨hbefore, hsame⟩ := rests_before hstep ht
    · obtain rfl | rfl := Thread.closing_of_rests hbefore
      · exact hsuspended (.inl ⟨t, hbefore⟩) rfl
      · exact hresting (.inl ⟨t, hbefore⟩) (h.closing_before hcontrol hmem hbefore hstep hl)
    · exact hsuspended hbefore hsuspends
    · have hold : s.dev.lifecycle = l := hsame.symm.trans hl
      obtain hbefore | hzero := hbefore
      · exact hresting (.inl ⟨t, hbefore⟩) hold
      · exact ⟨hold, hold ▸ Thread.ne_open_of_rests ht, .of_drained hcounted hzero⟩
  · obtain hbefore | ⟨t, -, -, hlast, -⟩ := power_before hstep hdown
    · exact hsuspended (.inr ⟨rfl, hbefore⟩) hsuspends
    · exact hsuspended (.inl ⟨t, hlast⟩) hsuspends

/-- While a cleanup is about to open the lifecycle, nobody else does. -/
theorem closed_after (h : AtRest s) (hlocks : LocksOwned (fun _ => none) s) (hsuspension : Suspension s)
    (hstep : stepDriver s a = some s') (hwill : (s'.thr t).willReopen = true) :
    s'.dev.lifecycle ≠ .instanceOpen ∧ ¬s'.Entering := by
  have hreached := (stepDriver_moves hstep t).reached (P := Thread.willReopen) (fun hstart => by cases hstart <;> rfl)
    (fun _ _ => rfl) hwill
  obtain ⟨hmem, hbefore⟩ | ⟨choice, rfl, hadvance⟩ := hreached
  · obtain ⟨hclosed, hentering⟩ := h.closed t hbefore
    -- another callback with the direct-read lock would be this one
    have halone : ∀ {i}, i ∈ a.thread → (s.thr i).locked .direct ≠ true := by
      intro i hi hlocked
      have hmine := (hlocks .direct t).mpr (.inl (Thread.locked_of_willReopen hbefore))
      have hname := (hlocks .direct i).mpr (.inl hlocked)
      exact hmem (Option.some.inj (hname.symm.trans hmine) ▸ hi)
    refine ⟨fun hopen => ?_, fun hafter => ?_⟩
    · obtain hunworked | ⟨i, choice, rfl, hadvance⟩ := stepDriver_works hstep
      · exact hclosed (hunworked.lifecycle.symm.trans hopen)
      · obtain hwas | ⟨henters, -⟩ | ⟨hother, -⟩ := stepThread_opens hadvance hopen
        · exact hclosed hwas
        · exact hentering (.inr ⟨i, henters⟩)
        · exact halone rfl (Thread.locked_of_willReopen hother)
    · obtain hwas | ⟨i, hi, -, hlocked⟩ := entering_before hstep hafter
      · exact hentering hwas
      · exact halone hi hlocked
  · have hsame : s'.dev.lifecycle = s.dev.lifecycle := (stepThread_rests hadvance (Thread.rests_of_willReopen hwill)).2
    have hbefore : s.dev.lifecycle ≠ .instanceOpen ∧ ¬s.Entering := by
      obtain hold | hlooked := stepThread_willReopen hadvance hwill
      · exact h.closed t hold
      · rw [hlooked]
        exact ⟨Lifecycle.noConfusion, hsuspension.not_entering (by rw [hlooked]; exact Lifecycle.noConfusion)⟩
    refine ⟨hsame ▸ hbefore.1, fun hafter => ?_⟩
    obtain hwas | ⟨i, hi, hkind, -⟩ := entering_before hstep hafter
    · exact hbefore.2 hwas
    · cases hi
      have hcleanup := stepThread_kind_before hadvance Thread.kind_of_willReopen rfl hwill
      rw [hkind] at hcleanup
      cases hcleanup

theorem step (h : AtRest s) (hcontrol : ControlOwned s) (hlocks : LocksOwned (fun _ => none) s)
    (hsuspension : Suspension s) (hcounted : LeasesCounted s) (hstep : stepDriver s a = some s') : AtRest s' := by
  refine ⟨fun hrests => ?_, fun t hrests hemptied => ?_, fun t => h.closed_after hlocks hsuspension hstep⟩
  · obtain ⟨-, hclosed, hstill⟩ := h.before hcontrol hsuspension hcounted hstep hrests
    exact hstill.step hclosed hstep
  · obtain ⟨hsame, hclosed, hstill⟩ := h.before hcontrol hsuspension hcounted hstep (.inl ⟨t, hrests⟩)
    have hreached := (stepDriver_moves hstep t).reached (P := fun th => th.rests s'.dev.lifecycle && th.emptied)
      (fun hstart => by cases hstart <;> exact Bool.and_false _) (fun _ _ => Bool.and_false _)
      (Bool.and_eq_true_iff.mpr ⟨hrests, hemptied⟩)
    rw [← hsame] at hreached hrests
    obtain ⟨-, hbefore⟩ | ⟨choice, -, hadvance⟩ := hreached
    · obtain ⟨hrested, hempty⟩ := Bool.and_eq_true_iff.mp hbefore
      exact hstill.queued hstep (h.emptied t hrested hempty)
    · obtain ⟨hrested, hempty⟩ | hqueued := stepThread_emptied hadvance hrests hemptied
      · exact hstill.queued hstep (h.emptied t hrested hempty)
      · exact hqueued

end AtRest

theorem DriverReach.atRest (h : DriverReach ok s) : AtRest s := by
  refine h.invariant (fun s hinit => ?_) fun _ _ _ hreach hinv _ hstep =>
    hinv.step (DriverReach.controlOwned hreach) (DriverReach.locksOwned hreach) (DriverReach.suspension hreach)
      (DriverReach.leasesCounted hreach) hstep
  obtain ⟨-, hidle⟩ := hinit
  refine ⟨fun _ t => by rw [hidle t]; rfl, fun t _ ht => ?_, fun t ht => ?_⟩
  all_goals
    rw [hidle t] at ht
    cases ht

/-- The lifecycle opens only at rest: no callback is past its check, and the capture queue is empty. -/
theorem DriverReach.opens_at_rest (h : DriverReach ok s) (hstep : stepDriver s a = some s')
    (hopen : s'.dev.lifecycle = .instanceOpen) :
    s.dev.lifecycle = .instanceOpen ∨ s.Still ∧ s.dev.queued .capture = [] := by
  have hrest := DriverReach.atRest h
  have hrests : ∀ {t}, (s.thr t).rests s.dev.lifecycle = true → (s.thr t).emptied = true →
      s.Still ∧ s.dev.queued .capture = [] :=
    fun hrests hemptied => ⟨hrest.still (.inl ⟨_, hrests⟩), hrest.emptied _ hrests hemptied⟩
  obtain hunworked | ⟨t, choice, -, hadvance⟩ := stepDriver_works hstep
  · exact .inl (hunworked.lifecycle.symm.trans hopen)
  · obtain hwas | ⟨henters, hemptied⟩ | ⟨hwill, hemptied, hclosing⟩ := stepThread_opens hadvance hopen
    · exact .inl hwas
    · have hsuspended := (DriverReach.suspension h).of_rests (.inl ⟨t, Thread.rests_of_enters henters⟩)
      exact .inr (hrests (by rw [hsuspended]; exact Thread.rests_of_enters henters) hemptied)
    · exact .inr (hrests (by rw [hclosing]; exact Thread.rests_of_willReopen hwill) hemptied)

end WinTap
