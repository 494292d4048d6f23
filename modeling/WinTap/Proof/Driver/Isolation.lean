import WinTap.Driver.Owners
import WinTap.Proof.Driver.Reopening

/-!
# Captured frames stay with their owner

Closing a handle should take the frames captured for it out of the driver, so that the next owner does not read them.
A cleanup may clear the capture queue while callbacks of the next owner are at work, since an earlier cleanup can have
let them in. The owner generation is not what keeps the frames apart either: it is checked before a frame is stored, and
may change in between. What holds is that a frame of a retired owner is a sign of a closed instance. When the instance
opens there is no frame at all, so from a retirement on, either no frame of the retired owners is left, or the instance
has been closed ever since and nobody has come past the check. The cleanup that waits out the leases then finds those
frames in the queue and nowhere else, and clears them. Frames that come after carry the number of a later owner.
-/

namespace WinTap

open Machine

variable {t u : ThreadId} {th : Thread} {a : Action} {n : Nat} {f : Frame} {d : Device} {choice : Choice}
  {next : Device × Thread} {s s' : Owners}

namespace Owners

/-! ### The history of a step -/

theorem stepOwners_eq (h : stepOwners s a = some s') :
    ∃ driver, stepDriver s.driver a = some driver ∧ s' = { s.record a with driver := driver } := by
  obtain ⟨driver, hstep, heq⟩ := Option.map_eq_some_iff.mp h
  exact ⟨driver, hstep, heq.symm⟩

theorem recordStep_tag (s : Owners) (t : ThreadId) (th : Thread) : (s.recordStep t th).tag = s.tag := by
  unfold recordStep
  split <;> rfl

theorem recordStep_snapshot (s : Owners) (h : u ≠ t ∨ ∀ passive, th ≠ .transmit passive .owner) :
    (s.recordStep t th).snapshot u = s.snapshot u := by
  unfold recordStep
  split
  · exact Function.update_of_ne (h.resolve_right fun hth => hth _ rfl) _ _
  all_goals rfl

theorem recordStep_reads (s : Owners) (t : ThreadId) (passive : Bool) :
    (s.recordStep t (.transmit passive .owner)).snapshot t = s.retired :=
  Function.update_self ..

theorem recordStep_closing (s : Owners) (h : u ≠ t ∨ ∀ handle, th ≠ .cleanup handle .retire) :
    (s.recordStep t th).closing u = s.closing u := by
  unfold recordStep
  split
  · rfl
  · exact Function.update_of_ne (h.resolve_right fun hth => hth _ rfl) _ _
  all_goals rfl

/-- The history counts on, and no cleanup closes for an owner to come. -/
theorem recordStep_bound (s : Owners) (t : ThreadId) (th : Thread) (hcleared : s.cleared ≤ s.retired)
    (hclosing : ∀ u, s.closing u ≤ s.retired) :
    s.retired ≤ (s.recordStep t th).retired ∧ s.cleared ≤ (s.recordStep t th).cleared ∧
      (s.recordStep t th).cleared ≤ (s.recordStep t th).retired ∧
      ∀ u, (s.recordStep t th).closing u ≤ (s.recordStep t th).retired := by
  unfold recordStep
  split
  · exact ⟨le_rfl, le_rfl, hcleared, hclosing⟩
  · refine ⟨Nat.le_succ _, le_rfl, hcleared.trans (Nat.le_succ _), fun u => ?_⟩
    by_cases hut : u = t
    · rw [hut]
      exact (Function.update_self ..).le
    · exact ((Function.update_of_ne hut ..).le).trans ((hclosing u).trans (Nat.le_succ _))
  · exact ⟨le_rfl, le_max_left _ _, max_le hcleared (hclosing t), hclosing⟩
  · exact ⟨le_rfl, le_rfl, hcleared, hclosing⟩

theorem recordStep_cleared (s : Owners) (t : ThreadId) (th : Thread) :
    (s.recordStep t th).cleared = s.cleared ∨
      (∃ handle owns, th = .cleanup handle (.clear owns .capture)) ∧
        (s.recordStep t th).cleared = max s.cleared (s.closing t) := by
  unfold recordStep
  split
  · exact .inl rfl
  · exact .inl rfl
  · exact .inr ⟨⟨_, _, rfl⟩, rfl⟩
  · exact .inl rfl

/-- A frame that is already there keeps its owner. -/
theorem record_tag (s : Owners) (a : Action) {serial : Nat} (hold : serial < s.driver.dev.nextSerial) :
    (s.record a).tag serial = s.tag serial := by
  cases a with
  | packet t length => exact Function.update_of_ne hold.ne _ _
  | advance t choice => exact congrFun (s.recordStep_tag t _) serial
  | _ => rfl

theorem record_snapshot (s : Owners) (ht : t ∉ a.thread) : (s.record a).snapshot t = s.snapshot t := by
  cases a with
  | advance u choice => exact s.recordStep_snapshot (.inl fun heq => ht (heq ▸ rfl))
  | _ => rfl

theorem record_closing (s : Owners) (ht : t ∉ a.thread) : (s.record a).closing t = s.closing t := by
  cases a with
  | advance u choice => exact s.recordStep_closing (.inl fun heq => ht (heq ▸ rfl))
  | _ => rfl

/-! ### Frames of retired owners -/

/-- The callback has a frame of an owner before `n`, or captures for one. -/
def StaleAt (s : Owners) (n : Nat) (t : ThreadId) : Prop :=
  (∃ f, (s.driver.thr t).inHand .capture = some f ∧ s.tag f.serial < n) ∨
    (s.driver.thr t).capturesFor ≠ none ∧ s.snapshot t < n

def HandStale (s : Owners) (n : Nat) : Prop := ∃ t, s.StaleAt n t

def QueueStale (s : Owners) (n : Nat) : Prop := ∃ f ∈ s.driver.dev.queued .capture, s.tag f.serial < n

/-- Something of an owner before `n` is left. -/
def Stale (s : Owners) (n : Nat) : Prop := s.HandStale n ∨ s.QueueStale n

theorem not_handStale_of_still (h : s.driver.Still) : ¬s.HandStale n := by
  rintro ⟨t, ⟨f, hf, -⟩ | ⟨hcaptures, -⟩⟩
  · exact h.absurd (Thread.pastCheck_of_inHand hf)
  · obtain ⟨gen, hgen⟩ := Option.ne_none_iff_exists'.mp hcaptures
    exact h.absurd (Thread.pastCheck_of_capturesFor hgen)

theorem stale_max {m n : Nat} (h : s.Stale (max m n)) : s.Stale m ∨ s.Stale n := by
  obtain ⟨t, ⟨f, hf, hlt⟩ | ⟨hcaptures, hlt⟩⟩ | ⟨f, hf, hlt⟩ := h <;> obtain hlt | hlt := lt_max_iff.mp hlt
  · exact .inl (.inl ⟨t, .inl ⟨f, hf, hlt⟩⟩)
  · exact .inr (.inl ⟨t, .inl ⟨f, hf, hlt⟩⟩)
  · exact .inl (.inl ⟨t, .inr ⟨hcaptures, hlt⟩⟩)
  · exact .inr (.inl ⟨t, .inr ⟨hcaptures, hlt⟩⟩)
  · exact .inl (.inr ⟨f, hf, hlt⟩)
  · exact .inr (.inr ⟨f, hf, hlt⟩)

/-- What is stale after a step was stale before; a callback gets it out of the queue only past its check. -/
theorem staleAt_step (htraffic : Traffic s.driver) (hn : n ≤ s.retired) (hstep : stepOwners s a = some s')
    (h : s'.StaleAt n t) : s.StaleAt n t ∨ s.QueueStale n ∧ ¬s.driver.Still := by
  obtain ⟨driver, hdriver, rfl⟩ := stepOwners_eq hstep
  have htag : ∀ {f}, s.driver.Carries .capture f → (s.record a).tag f.serial = s.tag f.serial :=
    fun hf => s.record_tag a (htraffic.known .capture _ hf).1
  unfold StaleAt at h
  dsimp only at h
  cases stepDriver_moves hdriver t with
  | stays ht hthr =>
    rw [hthr, s.record_snapshot ht] at h
    refine .inl (h.imp_left fun ⟨f, hf, hstale⟩ => ⟨f, hf, ?_⟩)
    rwa [htag ⟨t, .inl hf⟩] at hstale
  | starts hstart hthr =>
    exfalso
    rw [hthr] at h
    obtain ⟨f, hf, -⟩ | ⟨hcaptures, -⟩ := h
    · cases hstart <;> cases hf
    · cases hstart <;> exact hcaptures rfl
  | packet ha hbefore hthr =>
    subst ha
    refine .inl (.inr ⟨by rw [hbefore]; exact Option.some_ne_none _, ?_⟩)
    obtain ⟨f, hf, hstale⟩ | ⟨-, hstale⟩ := h
    · rw [hthr] at hf
      cases hf
      change Function.update s.tag s.driver.dev.nextSerial (s.snapshot t) s.driver.dev.nextSerial < n at hstale
      rwa [Function.update_self] at hstale
    · exact hstale
  | @advances choice ha hadvance =>
    subst ha
    obtain ⟨f, hf, hstale⟩ | ⟨hcaptures, hstale⟩ := h
    · obtain hhand | hqueued := (stepThread_capture_lane hadvance).hand_from hf
      · rw [htag ⟨t, .inl hhand⟩] at hstale
        exact .inl (.inl ⟨f, hhand, hstale⟩)
      · rw [htag ⟨t, .inr (.inl hqueued)⟩] at hstale
        refine .inr ⟨⟨f, hqueued, hstale⟩, fun hstill => ?_⟩
        obtain hbefore | ⟨-, hnone, -⟩ := stepThread_pastCheck hadvance (Thread.pastCheck_of_inHand hf)
        · exact hstill.absurd hbefore
        · cases hnone.symm.trans hf
    · change (s.recordStep t (s.driver.thr t)).snapshot t < n at hstale
      obtain ⟨gen, hgen⟩ := Option.ne_none_iff_exists'.mp hcaptures
      obtain hbefore | ⟨⟨passive, hthr⟩, -⟩ := stepThread_capturesFor hadvance hgen
      · rw [s.recordStep_snapshot (.inr fun passive hthr => by rw [hthr] at hbefore; cases hbefore)] at hstale
        exact .inl (.inr ⟨by rw [hbefore]; exact Option.some_ne_none _, hstale⟩)
      · -- the callback has just read the number of the present owner
        rw [hthr, s.recordStep_reads] at hstale
        exact absurd hn (Nat.not_le.mpr hstale)

theorem handStale_step (htraffic : Traffic s.driver) (hn : n ≤ s.retired) (hstep : stepOwners s a = some s')
    (h : s'.HandStale n) : s.HandStale n ∨ s.QueueStale n ∧ ¬s.driver.Still := by
  obtain ⟨t, ht⟩ := h
  exact (staleAt_step htraffic hn hstep ht).imp_left fun hbefore => ⟨t, hbefore⟩

theorem queueStale_step (htraffic : Traffic s.driver) (hstep : stepOwners s a = some s') (h : s'.QueueStale n) :
    s.QueueStale n ∨ s.HandStale n := by
  obtain ⟨driver, hdriver, rfl⟩ := stepOwners_eq hstep
  obtain ⟨f, hf, hstale⟩ := h
  change (s.record a).tag f.serial < n at hstale
  have hqueued : f ∈ s.driver.dev.queued .capture → s.QueueStale n := fun hbefore => by
    rw [s.record_tag a (htraffic.known .capture f ⟨0, .inr (.inl hbefore)⟩).1] at hstale
    exact ⟨f, hbefore, hstale⟩
  obtain hunworked | ⟨u, choice, -, hadvance⟩ := stepDriver_works hdriver
  · exact .inl (hqueued (hunworked.queued ▸ hf))
  · obtain hbefore | hhand := (stepThread_capture_lane hadvance).pool_from hf
    · exact .inl (hqueued hbefore)
    · rw [s.record_tag _ (htraffic.known .capture f ⟨u, .inl hhand⟩).1] at hstale
      exact .inr ⟨u, .inl ⟨f, hhand, hstale⟩⟩

theorem stale_step (htraffic : Traffic s.driver) (hn : n ≤ s.retired) (hstep : stepOwners s a = some s')
    (h : s'.Stale n) : s.Stale n := by
  obtain hhand | hqueue := h
  · exact (handStale_step htraffic hn hstep hhand).imp_right And.left
  · exact (queueStale_step htraffic hstep hqueue).symm

/-! ### The closing cleanups -/

end Owners

/-- The cleanup took its turn at the lifecycle and has not cleared the capture queue. -/
def CleanupPc.retires : CleanupPc → Bool
  | .quiesce .. | .lockDirect _ | .lockWrite _ | .adaptive _ | .teardown .. | .flush .. | .purge ..
  | .clear _ .injection | .clear _ .injectionGeneration | .clear _ .capture => true
  | _ => false

/-- And it has waited out the leases. -/
def CleanupPc.waited : CleanupPc → Bool
  | .quiesce .. => false
  | pc => pc.retires

def Thread.retires : Thread → Bool
  | .cleanup _ pc => pc.retires
  | _ => false

def Thread.waited : Thread → Bool
  | .cleanup _ pc => pc.waited
  | _ => false

theorem Thread.kind_of_retires (h : th.retires = true) : th.kind = .cleanup := by
  cases th <;> first | rfl | cases h

theorem Thread.retires_of_waited (h : th.waited = true) : th.retires = true := by
  cases th with
  | cleanup handle pc => cases pc <;> first | rfl | exact h
  | _ => cases h

theorem stepThread_retires (hstep : stepThread d t choice th = some next) (hafter : next.2.retires = true) :
    (th.retires = true ∨ next.1.lifecycle ≠ .instanceOpen) ∧ ∀ handle, th ≠ .cleanup handle .retire := by
  have hkind := stepThread_kind_before hstep Thread.kind_of_retires rfl hafter
  cases th <;> cases hkind
  obtain ⟨⟨d', flow⟩, hcleanup, rfl⟩ := Option.map_eq_some_iff.mp hstep
  have hpc : ∀ {pc : CleanupPc}, pc ≠ .retire → ∀ {h handle : Handle}, Thread.cleanup h pc ≠ .cleanup handle .retire :=
    fun hne h handle heq => hne (Thread.cleanup.inj heq).2
  cases evtFileCleanup_cases hcleanup with
  | claim _ => exact ⟨.inr Lifecycle.noConfusion, fun _ => hpc (by decide)⟩
  | decline hclosed => exact ⟨.inr hclosed, fun _ => hpc (by decide)⟩
  | _ => first | exact ⟨.inl rfl, fun _ => hpc (by simp)⟩ | cases hafter

theorem stepThread_waited (hstep : stepThread d t choice th = some next) (hafter : next.2.waited = true) :
    th.retires = true ∧ (th.waited = true ∨ leaseCount (d.leases.word .capture) = 0) := by
  have hkind := stepThread_kind_before (P := Thread.waited) hstep
    (fun h => Thread.kind_of_retires (Thread.retires_of_waited h)) rfl hafter
  cases th <;> cases hkind
  obtain ⟨⟨d', flow⟩, hcleanup, rfl⟩ := Option.map_eq_some_iff.mp hstep
  cases evtFileCleanup_cases hcleanup with
  | drainCapture owns hcount => exact ⟨rfl, .inr hcount⟩
  | _ => first | exact ⟨rfl, .inl rfl⟩ | cases hafter

namespace Owners

/-- A cleanup that retires its owner did so before the step, or has just taken its turn at the lifecycle. -/
theorem retires_before (hstep : stepOwners s a = some s') (ht : (s'.driver.thr t).retires = true) :
    s'.closing t = s.closing t ∧ ((s.driver.thr t).retires = true ∨ s'.driver.dev.lifecycle ≠ .instanceOpen) := by
  obtain ⟨driver, hdriver, rfl⟩ := stepOwners_eq hstep
  obtain ⟨hmem, hbefore⟩ | ⟨choice, rfl, hadvance⟩ := (stepDriver_moves hdriver t).reached (P := Thread.retires)
    (fun hstart => by cases hstart <;> rfl) (fun _ _ => rfl) ht
  · exact ⟨s.record_closing hmem, .inl hbefore⟩
  · obtain ⟨hbefore, hretire⟩ := stepThread_retires hadvance ht
    exact ⟨s.recordStep_closing (.inr hretire), hbefore⟩

theorem waited_before (hstep : stepOwners s a = some s') (ht : (s'.driver.thr t).waited = true) :
    (s.driver.thr t).retires = true ∧
      ((s.driver.thr t).waited = true ∨ leaseCount (s.driver.dev.leases.word .capture) = 0) := by
  obtain ⟨driver, hdriver, rfl⟩ := stepOwners_eq hstep
  obtain ⟨-, hbefore⟩ | ⟨choice, rfl, hadvance⟩ := (stepDriver_moves hdriver t).reached (P := Thread.waited)
    (fun hstart => by cases hstart <;> rfl) (fun _ _ => rfl) ht
  · exact ⟨Thread.retires_of_waited hbefore, .inl hbefore⟩
  · exact stepThread_waited hadvance ht

/-- The queue is cleared for more owners only by a cleanup that closes for them, and then it is empty. -/
theorem cleared_step (hstep : stepOwners s a = some s') :
    s'.cleared = s.cleared ∨
      ∃ t, (s.driver.thr t).waited = true ∧ s'.cleared = max s.cleared (s.closing t) ∧
        s'.driver.dev.queued .capture = [] := by
  obtain ⟨driver, hdriver, rfl⟩ := stepOwners_eq hstep
  cases a with
  | advance t choice =>
    obtain hsame | ⟨⟨handle, owns, hthr⟩, hcleared⟩ := s.recordStep_cleared t (s.driver.thr t)
    · exact .inl hsame
    · refine .inr ⟨t, by rw [hthr]; rfl, hcleared, ?_⟩
      obtain ⟨d, th, hadvance, rfl⟩ := stepDriver_advance hdriver
      rw [hthr] at hadvance
      cases hadvance
      rfl
  | _ => exact .inl rfl

theorem record_bound (s : Owners) (a : Action) (hcleared : s.cleared ≤ s.retired)
    (hclosing : ∀ u, s.closing u ≤ s.retired) :
    s.retired ≤ (s.record a).retired ∧ s.cleared ≤ (s.record a).cleared ∧
      (s.record a).cleared ≤ (s.record a).retired ∧ ∀ u, (s.record a).closing u ≤ (s.record a).retired := by
  cases a with
  | advance t choice => exact s.recordStep_bound t (s.driver.thr t) hcleared hclosing
  | _ => exact ⟨le_rfl, le_rfl, hcleared, hclosing⟩

/-- Nothing is left of the owners that the queue was cleared for. While a cleanup is on its way there, what is left of
the owners it closes for keeps the instance closed, and after the wait for the leases it is in the queue and at rest. -/
structure Isolated (s : Owners) : Prop where
  cleared : s.cleared ≤ s.retired
  closing : ∀ t, s.closing t ≤ s.retired
  shut : ∀ t, (s.driver.thr t).retires = true → s.Stale (s.closing t) → s.driver.dev.lifecycle ≠ .instanceOpen
  waited : ∀ t, (s.driver.thr t).waited = true →
    ¬s.HandStale (s.closing t) ∧ (s.QueueStale (s.closing t) → s.driver.Still)
  clean : ¬s.Stale s.cleared

namespace Isolated

theorem start (driver : Driver) (h : driverSystem.init driver) : Isolated (.start driver) := by
  have hidle : ∀ t, (Owners.start driver).driver.thr t = .idle := h.2
  refine ⟨le_rfl, fun _ => le_rfl, fun t ht => ?_, fun t ht => ?_, ?_⟩
  · rw [hidle t] at ht
    cases ht
  · rw [hidle t] at ht
    cases ht
  · rintro (⟨t, ⟨f, hf, -⟩ | ⟨-, hlt⟩⟩ | ⟨f, -, hlt⟩)
    · rw [hidle t] at hf
      cases hf
    · exact absurd hlt (Nat.not_lt_zero _)
    · exact absurd hlt (Nat.not_lt_zero _)

theorem step (h : Isolated s) (hreach : DriverReach Free s.driver) (hstep : stepOwners s a = some s') :
    Isolated s' := by
  have htraffic := DriverReach.traffic hreach
  obtain ⟨driver, hdriver, hs'⟩ := stepOwners_eq hstep
  obtain ⟨hretired, -, hbound, hclosing⟩ := s.record_bound a h.cleared h.closing
  have hdev : s'.driver = driver := by rw [hs']
  -- what is stale after the step makes the instance closed before it
  have hshut : ∀ t, (s'.driver.thr t).retires = true → s'.Stale (s.closing t) →
      s'.driver.dev.lifecycle ≠ .instanceOpen := by
    intro t ht hstale hopen
    have hbefore := stale_step htraffic (h.closing t) hstep hstale
    obtain hold | hnew := (retires_before hstep ht).2
    · rw [hdev] at hopen
      obtain hwas | ⟨hstill, hempty⟩ := DriverReach.opens_at_rest hreach hdriver hopen
      · exact h.shut t hold hbefore hwas
      · obtain hhand | ⟨f, hf, -⟩ := hbefore
        · exact not_handStale_of_still hstill hhand
        · rw [hempty] at hf
          cases hf
    · exact hnew hopen
  have hclear : ∀ t, ¬s.HandStale (s.closing t) → (s.QueueStale (s.closing t) → s.driver.Still) →
      ¬s'.HandStale (s.closing t) := by
    intro t hhand hqueue hstale
    obtain hbefore | ⟨hqueued, hmoving⟩ := handStale_step htraffic (h.closing t) hstep hstale
    · exact hhand hbefore
    · exact hmoving (hqueue hqueued)
  refine ⟨by rwa [hs'], by rwa [hs'], fun t ht hstale => ?_, fun t ht => ?_, fun hstale => ?_⟩
  · rw [(retires_before hstep ht).1] at hstale
    exact hshut t ht hstale
  · rw [(retires_before hstep (Thread.retires_of_waited ht)).1]
    obtain ⟨hretires, hwaited⟩ := waited_before hstep ht
    have hrest : ¬s.HandStale (s.closing t) ∧ (s.QueueStale (s.closing t) → s.driver.Still) := by
      obtain hold | hzero := hwaited
      · exact h.waited t hold
      · have hstill := Driver.Still.of_drained (DriverReach.leasesCounted hreach) hzero
        exact ⟨not_handStale_of_still hstill, fun _ => hstill⟩
    refine ⟨hclear t hrest.1 hrest.2, fun hqueue => ?_⟩
    have hbefore := (queueStale_step htraffic hstep hqueue).resolve_right hrest.1
    rw [hdev]
    exact (hrest.2 hbefore).step (h.shut t hretires (.inr hbefore)) hdriver
  · obtain hsame | ⟨t, ht, hcleared, hempty⟩ := cleared_step hstep
    · rw [hsame] at hstale
      exact h.clean (stale_step htraffic h.cleared hstep hstale)
    · rw [hcleared] at hstale
      obtain hold | hhand | ⟨f, hf, -⟩ := stale_max hstale
      · exact h.clean (stale_step htraffic h.cleared hstep hold)
      · exact hclear t (h.waited t ht).1 (h.waited t ht).2 hhand
      · rw [hempty] at hf
        cases hf

theorem hand (h : Isolated s) (hf : (s.driver.thr t).inHand .capture = some f) : s.cleared ≤ s.tag f.serial :=
  Nat.le_of_not_lt fun hstale => h.clean (.inl ⟨t, .inl ⟨f, hf, hstale⟩⟩)

theorem queue (h : Isolated s) (hf : f ∈ s.driver.dev.queued .capture) : s.cleared ≤ s.tag f.serial :=
  Nat.le_of_not_lt fun hstale => h.clean (.inr ⟨f, hf, hstale⟩)

end Isolated

end Owners

/-! ### Numbers and words -/

theorem stepThread_ownerGeneration (hstep : stepThread d t choice th = some next) :
    (∃ h, th = .cleanup h .retire) ∧ next.1.ownerGeneration = d.ownerGeneration + 1 ∨
      (∀ h, th ≠ .cleanup h .retire) ∧ next.1.ownerGeneration = d.ownerGeneration := by
  by_cases hk : th.kind = .cleanup
  · cases th <;> cases hk
    rename_i h pc
    obtain ⟨⟨d', flow⟩, hcleanup, rfl⟩ := Option.map_eq_some_iff.mp hstep
    obtain ⟨_, _, _, _, _, _, _, hframe⟩ := (Thread.cleanup h pc).settle_frame (.cleanup h) (d', flow)
    rw [hframe]
    have hpc : pc ≠ .retire → ∀ handle, Thread.cleanup h pc ≠ .cleanup handle .retire :=
      fun hne handle heq => hne (Thread.cleanup.inj heq).2
    cases evtFileCleanup_cases hcleanup with
    | retire _ => exact .inl ⟨⟨h, rfl⟩, rfl⟩
    | _ => exact .inr ⟨hpc (by simp), rfl⟩
  · refine .inr ⟨fun h hth => hk (by rw [hth]; rfl), (stepThread_frames hstep).ownerGeneration ?_⟩
    simpa using hk

namespace Owners

theorem recordStep_retired (s : Owners) (h : ∀ handle, th ≠ .cleanup handle .retire) :
    (s.recordStep t th).retired = s.retired := by
  unfold recordStep
  split
  · rfl
  · exact absurd rfl (h _)
  all_goals rfl

/-- The words of the driver are the numbers of the history. -/
structure Numbered (s : Owners) : Prop where
  present : s.driver.dev.ownerGeneration = BitVec.ofNat 64 s.retired
  captures : ∀ t gen, (s.driver.thr t).capturesFor = some gen → gen = BitVec.ofNat 64 (s.snapshot t)

theorem Numbered.step (h : Numbered s) (hstep : stepOwners s a = some s') : Numbered s' := by
  obtain ⟨driver, hdriver, rfl⟩ := stepOwners_eq hstep
  refine ⟨?_, fun t gen hgen => ?_⟩
  · change driver.dev.ownerGeneration = BitVec.ofNat 64 (s.record a).retired
    by_cases ha : ∃ t choice, a = .advance t choice
    · obtain ⟨t, choice, rfl⟩ := ha
      obtain ⟨d, th, hadvance, rfl⟩ := stepDriver_advance hdriver
      change d.ownerGeneration = BitVec.ofNat 64 (s.recordStep t (s.driver.thr t)).retired
      obtain ⟨⟨handle, hthr⟩, hnext⟩ | ⟨hthr, hsame⟩ := stepThread_ownerGeneration hadvance
      · rw [hnext, h.present, hthr]
        exact (BitVec.ofNat_add s.retired 1).symm
      · rw [hsame, s.recordStep_retired hthr]
        exact h.present
    · have hsame : (s.record a).retired = s.retired := by
        cases a with
        | advance t choice => exact absurd ⟨t, choice, rfl⟩ ha
        | _ => rfl
      obtain hunworked | ⟨t, choice, hadvance, -⟩ := stepDriver_works hdriver
      · rw [hunworked.ownerGeneration, hsame]
        exact h.present
      · exact absurd ⟨t, choice, hadvance⟩ ha
  · change gen = BitVec.ofNat 64 ((s.record a).snapshot t)
    change (driver.thr t).capturesFor = some gen at hgen
    cases stepDriver_moves hdriver t with
    | stays ht hthr =>
      rw [s.record_snapshot ht]
      exact h.captures t gen (hthr ▸ hgen)
    | starts hstart hthr =>
      rw [hthr] at hgen
      cases hstart <;> cases hgen
    | packet ha hbefore hthr =>
      subst ha
      rw [hthr] at hgen
      exact h.captures t gen (by rw [hbefore]; exact hgen)
    | advances ha hadvance =>
      subst ha
      change gen = BitVec.ofNat 64 ((s.recordStep t (s.driver.thr t)).snapshot t)
      obtain hbefore | ⟨⟨passive, hthr⟩, rfl⟩ := stepThread_capturesFor hadvance hgen
      · rw [s.recordStep_snapshot (.inr fun passive hthr => by rw [hthr] at hbefore; cases hbefore)]
        exact h.captures t gen hbefore
      · rw [h.present, hthr, s.recordStep_reads]

end Owners

/-! ### Runs -/

theorem OwnerReach.driver (h : OwnerReach Free s) : DriverReach Free s.driver := by
  refine Reach.simulate Owners.driver (fun s hinit => ?_) (fun s a s' _ hreach _ hstep => ?_) h
  · obtain ⟨driver, hinit, rfl⟩ := hinit
    exact hinit
  · obtain ⟨driver, hdriver, rfl⟩ := Owners.stepOwners_eq hstep
    exact .step hreach trivial hdriver

/-- Every run of the driver has its history. -/
theorem DriverReach.exists_owners {driver : Driver} (h : DriverReach Free driver) :
    ∃ s : Owners, OwnerReach Free s ∧ s.driver = driver := by
  induction h with
  | init hinit => exact ⟨.start _, .init ⟨_, hinit, rfl⟩, rfl⟩
  | @step driver driver' a _ _ hstep ih =>
    obtain ⟨s, hs, rfl⟩ := ih
    refine ⟨{ s.record a with driver := driver' }, .step hs trivial (a := a) ?_, rfl⟩
    change stepOwners s a = _
    rw [stepOwners, show stepDriver s.driver a = some driver' from hstep]
    rfl

theorem OwnerReach.isolated (h : OwnerReach Free s) : s.Isolated := by
  refine h.invariant (fun s hinit => ?_) fun _ _ _ hreach hinv _ hstep => hinv.step (OwnerReach.driver hreach) hstep
  obtain ⟨driver, hinit, rfl⟩ := hinit
  exact .start driver hinit

theorem OwnerReach.numbered (h : OwnerReach Free s) : s.Numbered := by
  refine h.invariant (fun s hinit => ?_) fun _ _ _ _ hinv _ hstep => hinv.step hstep
  obtain ⟨driver, ⟨⟨mtu, -, -, hdev⟩, hidle⟩, rfl⟩ := hinit
  refine ⟨?_, fun t gen hgen => ?_⟩
  · change driver.dev.ownerGeneration = _
    rw [hdev]
    rfl
  · change (driver.thr t).capturesFor = some gen at hgen
    rw [hidle t] at hgen
    cases hgen

/-- A READ returns what a callback had in hand. -/
theorem stepDriver_departed {s s' : Driver} (hstep : stepDriver s a = some s') (hf : f ∈ s'.dev.departed .capture) :
    f ∈ s.dev.departed .capture ∨ ∃ t, (s.thr t).inHand .capture = some f := by
  obtain hunworked | ⟨t, choice, -, hadvance⟩ := stepDriver_works hstep
  · exact .inl (hunworked.departed ▸ hf)
  · exact ((stepThread_capture_lane hadvance).gone_from hf).imp_right fun hhand => ⟨t, hhand⟩

/-- From a clearing on, no READ returns a frame of the owners that were cleared. -/
theorem OwnerReach.delivers (h : OwnerReach Free s) (hpath : Path ownerSystem Free s s') :
    s.cleared ≤ s'.cleared ∧ ∀ f, f ∈ s'.driver.dev.departed .capture →
      f ∈ s.driver.dev.departed .capture ∨ s.cleared ≤ s'.tag f.serial := by
  refine hpath.invariant (P := fun s' => s.cleared ≤ s'.cleared ∧ ∀ f, f ∈ s'.driver.dev.departed .capture →
    f ∈ s.driver.dev.departed .capture ∨ s.cleared ≤ s'.tag f.serial) ⟨le_rfl, fun f hf => .inl hf⟩ ?_
  intro s₁ a s₂ hbefore hinv _ hstep
  obtain ⟨hcleared, hdelivered⟩ := hinv
  have hreach : OwnerReach Free s₁ := hbefore.reach (fun _ _ => id) h
  have hisolated := OwnerReach.isolated hreach
  have htraffic := DriverReach.traffic (OwnerReach.driver hreach)
  obtain ⟨driver, hdriver, rfl⟩ := Owners.stepOwners_eq hstep
  refine ⟨hcleared.trans (s₁.record_bound a hisolated.cleared hisolated.closing).2.1, fun f hf => ?_⟩
  change f ∈ s.driver.dev.departed .capture ∨ s.cleared ≤ (s₁.record a).tag f.serial
  obtain hold | ⟨t, hhand⟩ := stepDriver_departed hdriver hf
  · rw [s₁.record_tag a (htraffic.known .capture f ⟨0, .inr (.inr hold)⟩).1]
    exact hdelivered f hold
  · rw [s₁.record_tag a (htraffic.known .capture f ⟨t, .inl hhand⟩).1]
    exact .inr (hcleared.trans (hisolated.hand hhand))

/-- Once a cleanup has cleared the capture queue for the owners up to its own, a frame captured for one of them is gone
for good: it is in no queue and in no hand, and no READ returns it any more. This holds through any interleaving with
other cleanups, that clear behind each other's backs, and with power transitions. The owners are those that
`owner_generation` counts. -/
theorem captured_frames_keep_owner {s s' : Owners} (h : OwnerReach Free s) (hpath : Path ownerSystem Free s s') :
    (∀ f, f ∈ s'.driver.dev.queued .capture → s.cleared ≤ s'.tag f.serial) ∧
      (∀ t f, (s'.driver.thr t).inHand .capture = some f → s.cleared ≤ s'.tag f.serial) ∧
      (∀ f, f ∈ s'.driver.dev.departed .capture →
        f ∈ s.driver.dev.departed .capture ∨ s.cleared ≤ s'.tag f.serial) ∧
      s'.driver.dev.ownerGeneration = BitVec.ofNat 64 s'.retired ∧
      ∀ t gen, (s'.driver.thr t).capturesFor = some gen → gen = BitVec.ofNat 64 (s'.snapshot t) := by
  have hreach : OwnerReach Free s' := hpath.reach (fun _ _ => id) h
  have hisolated := OwnerReach.isolated hreach
  obtain ⟨hcleared, hdelivered⟩ := OwnerReach.delivers h hpath
  obtain ⟨hpresent, hcaptures⟩ := OwnerReach.numbered hreach
  exact ⟨fun f hf => hcleared.trans (hisolated.queue hf), fun t f hf => hcleared.trans (hisolated.hand hf),
    hdelivered, hpresent, hcaptures⟩

/-- A packet is captured for the owner of handle 7, who reads nothing, and the cleanup clears the queue. -/
def capturedAndCleared : List Action :=
  .create 1 7 :: steps 1 2 ++ .transmit 3 false :: steps 3 3 ++ .packet 3 60 :: steps 3 11 ++ .work 4 :: steps 4 6 ++
    .cleanup 1 7 :: steps 1 15

/-- The next owner comes, another packet is captured, and a READ returns it. -/
def readByTheNext : List Action :=
  steps 1 16 ++ .create 2 8 :: steps 2 2 ++ .transmit 3 false :: steps 3 3 ++ .packet 3 70 :: steps 3 6 ++
    .read 5 8 100 :: steps 5 9

theorem captured_frames_keep_owner_next :
    let s := ownerSystem.after (.start .initial) capturedAndCleared
    let s' := ownerSystem.after s readByTheNext
    s.cleared = 1 ∧ s'.driver.dev.departed .capture = [⟨1, 70⟩] ∧ 1 ≤ s'.tag 1 := by
  intro s s'
  have hcleared : s.cleared = 1 := by decide +kernel
  have hbefore : s.driver.dev.departed .capture = [] := by decide +kernel
  have hdelivered : s'.driver.dev.departed .capture = [⟨1, 70⟩] := by decide +kernel
  have hstart : OwnerReach Free (.start .initial) :=
    .init ⟨.initial, ⟨⟨defaultMtu, by decide, by decide, rfl⟩, fun _ => rfl⟩, rfl⟩
  have hreach : OwnerReach Free s := System.reach_after hstart _
  obtain ⟨-, -, hkeep, -⟩ := captured_frames_keep_owner hreach (System.path_after s readByTheNext)
  refine ⟨hcleared, hdelivered, ?_⟩
  obtain hold | hnew := hkeep ⟨1, 70⟩ (hdelivered ▸ List.mem_singleton_self _)
  · rw [hbefore] at hold
    cases hold
  · exact hcleared ▸ hnew

end WinTap
