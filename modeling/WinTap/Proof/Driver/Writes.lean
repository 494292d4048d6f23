import WinTap.Proof.Driver.HardwareLocks

/-!
# The count of pending WRITEs

A WRITE runs under the write-lifetime lock from before its admission until after its completion, and every teardown path
takes the same lock before it resets the count of pending WRITEs. So the count is one while a WRITE is between its
admission and its release and zero otherwise, and a reset finds nothing to reset.
-/

namespace WinTap

variable {th : Thread} {d d' : Device} {t : ThreadId} {choice : Choice} {next : Device × Thread}

/-- A WRITE is admitted and not released. -/
def WritePc.admitted : WritePc → Bool
  | .capacity | .allocate | .enqueue _ | .generation | .notification | .releaseAccepted _ | .release _ => true
  | _ => false

def Thread.admitted : Thread → Bool
  | .write _ _ pc => pc.admitted
  | _ => false

/-- What a callback contributes to the count. -/
def Thread.pending (th : Thread) : Nat := if th.admitted then 1 else 0

theorem Thread.pending_of_kind (h : th.kind ≠ .write) : th.pending = 0 := by
  cases th <;> first | rfl | exact absurd rfl h

/-- A callback outside the lock contributes nothing. -/
theorem Thread.pending_of_unlocked (h : th.locked .write = false) : th.pending = 0 := by
  cases th with
  | write h input pc => cases pc <;> first | rfl | cases h
  | _ => rfl

/-! ### One step -/

/-- A WRITE counts itself in and out. -/
theorem evtIoWrite_pendingWrites {h : Handle} {input : WriteInput} {pc : WritePc} {flow : Flow WritePc Unit}
    (hstep : evtIoWrite d t h input choice pc = some (d', flow))
    (hcounted : (Thread.write h input pc).pending ≤ d.pendingWrites) :
    d'.pendingWrites + (Thread.write h input pc).pending =
      d.pendingWrites + flow.on (fun pc => (Thread.write h input pc).pending) 0 := by
  cases pc with
  | tryAdmit =>
    simp only [evtIoWrite] at hstep
    split at hstep
    · cases hstep
      rfl
    · rename_i count hcount
      split at hstep <;> cases hstep <;> exact tryAdmit_eq hcount
  | releaseAccepted notify | release status =>
    cases hstep
    exact Nat.sub_add_cancel hcounted
  | lock | lifecycle | capacity | allocate | enqueue | completeAccepted =>
    simp only [evtIoWrite] at hstep
    repeat' split at hstep
    all_goals cases hstep <;> rfl
  | _ =>
    cases hstep
    rfl

theorem Thread.settle_pendingWrites {π : Type} (th : Thread) (inside : π → Thread) (result : Device × Flow π Unit) :
    (th.settle inside result).1.pendingWrites = result.1.pendingWrites := by
  obtain ⟨_, _, _, _, _, _, _, hframe⟩ := th.settle_frame inside result
  rw [hframe]

/-- Beside WRITEs only a teardown path with the lock changes the count, and it resets it. -/
theorem stepThread_resets (hstep : stepThread d t choice th = some next) (hkind : th.kind ≠ .write) :
    next.1.pendingWrites = d.pendingWrites ∨ th.locked .write = true ∧ next.1.pendingWrites = 0 := by
  have hsame : ∀ {π : Type} {inside : π → Thread} {result : Device × Flow π Unit},
      result.1.pendingWrites = d.pendingWrites → (th.settle inside result).1.pendingWrites = d.pendingWrites ∨
        th.locked .write = true ∧ (th.settle inside result).1.pendingWrites = 0 :=
    fun hresult => .inl ((Thread.settle_pendingWrites ..).trans hresult)
  cases th with
  | idle => cases hstep
  | write h input pc => exact absurd rfl hkind
  | read r pc =>
    cases hstep
    obtain ⟨_, _, _, _, _, hframe⟩ := evtIoRead_frame d t choice r pc
    exact hsame (by rw [hframe])
  | transmit passive pc =>
    cases hstep
    obtain ⟨_, _, _, _, _, _, _, hframe⟩ := advanceTransmit_frame d t choice passive pc
    exact hsame (by rw [hframe])
  | receive pc =>
    cases hstep
    obtain ⟨_, _, _, hframe⟩ := advanceReceive_frame d t choice pc
    exact hsame (by rw [hframe])
  | worker pc =>
    cases hstep
    obtain ⟨_, _, _, _, _, hframe⟩ := evtReadCompletionWorkItem_frame d t choice pc
    exact hsame (by rw [hframe])
  | register h r input pc =>
    cases hstep
    obtain ⟨_, _, hframe⟩ := registerWait_frame d t choice h r input pc
    exact hsame (by rw [hframe])
  | cancel r pc =>
    cases hstep
    exact hsame rfl
  | enable h input pc =>
    obtain ⟨⟨d', flow⟩, henable, rfl⟩ := Option.map_eq_some_iff.mp hstep
    obtain ⟨_, _, _, _, hframe⟩ := handleEnableAdaptivePolling_frame d t h input pc henable
    exact hsame (by rw [hframe])
  | stopRead r pc =>
    cases hstep
    obtain ⟨_, _, _, hframe⟩ := stopRead_frame d r pc
    exact hsame (by rw [hframe])
  | stopControl r pc =>
    cases hstep
    obtain ⟨_, hframe⟩ := stopControl_frame d choice r pc
    exact hsame (by rw [hframe])
  | create h pc =>
    cases hstep
    obtain ⟨_, _, _, hframe⟩ := evtFileCreate_frame d h pc
    exact hsame (by rw [hframe])
  | cleanup h pc =>
    obtain ⟨⟨d', flow⟩, hcleanup, rfl⟩ := Option.map_eq_some_iff.mp hstep
    cases evtFileCleanup_cases hcleanup with
    | zeroWrites => exact .inr ⟨rfl, rfl⟩
    | _ => exact hsame rfl
  | d0Entry pc =>
    obtain ⟨⟨d', flow⟩, hentry, rfl⟩ := Option.map_eq_some_iff.mp hstep
    cases evtDeviceD0Entry_cases hentry <;> exact hsame rfl
  | d0Exit pc =>
    obtain ⟨⟨d', flow⟩, hexit, rfl⟩ := Option.map_eq_some_iff.mp hstep
    cases evtDeviceD0Exit_cases hexit with
    | zeroWrites => exact .inr ⟨rfl, rfl⟩
    | _ => exact hsame rfl
  | queueStop isTransmit pc =>
    obtain ⟨⟨d', flow⟩, hstop, rfl⟩ := Option.map_eq_some_iff.mp hstep
    cases evtPacketQueueStop_cases hstop <;> exact hsame rfl
  | notification pc =>
    cases hstep
    obtain ⟨_, _, hframe⟩ := setNotificationEnabled_frame d pc
    exact hsame (by rw [hframe])

theorem stepThread_pendingWrites (hstep : stepThread d t choice th = some next)
    (hcounted : th.pending ≤ d.pendingWrites) :
    next.1.pendingWrites + th.pending = d.pendingWrites + next.2.pending ∨
      th.locked .write = true ∧ next.1.pendingWrites = 0 ∧ next.2.pending = 0 := by
  by_cases hkind : th.kind = .write
  · cases th <;> simp only [Thread.kind, reduceCtorEq] at hkind
    obtain ⟨⟨d', flow⟩, hwrite, rfl⟩ := Option.map_eq_some_iff.mp hstep
    have hcount := evtIoWrite_pendingWrites hwrite hcounted
    refine .inl ?_
    rw [Thread.settle_pendingWrites]
    cases flow <;> exact hcount
  · rw [Thread.pending_of_kind (stepThread_kind_ne hstep (by decide) hkind), Thread.pending_of_kind hkind]
    exact (stepThread_resets hstep hkind).imp_right fun hreset => ⟨hreset.1, hreset.2, rfl⟩

theorem ReleaseStep.pendingWrites {pc : ReleasePc} {flow : Flow ReleasePc Unit}
    (h : ReleaseStep d t choice pc d' flow) :
    d'.pendingWrites = d.pendingWrites ∨ pc.locked .write = true ∧ d'.pendingWrites = 0 := by
  cases h with
  | zeroWrites => exact .inr ⟨rfl, rfl⟩
  | _ => exact .inl rfl

/-! ### Runs -/

def WritesCounted (s : Driver) : Prop := Tally (fun t => (s.thr t).pending) s.dev.pendingWrites

section
variable {s s' : Driver} {a : Action} {outside : Lock → Option ThreadId} {t i : ThreadId}

/-- Nobody but the holder of the lock contributes. -/
theorem LocksOwned.pending_of_ne (h : LocksOwned outside s) (hlock : s.dev.lock .write = some t) (hi : i ≠ t) :
    (s.thr i).pending = 0 := by
  refine Thread.pending_of_unlocked (Bool.eq_false_iff.mpr fun hlocked => hi ?_)
  exact Option.some.inj (((h .write i).mpr (.inl hlocked)).symm.trans hlock)

theorem WritesCounted.step (h : WritesCounted s) (howned : LocksOwned outside s) (hstep : stepDriver s a = some s') :
    WritesCounted s' := by
  cases stepDriver_cases hstep with
  | @start t a d th hidle hstart =>
    have hfresh : th.pending = (s.thr t).pending := by
      rw [hidle]
      cases hstart <;> rfl
    obtain ⟨_, _, _, _, _, _, _, _, hframe⟩ := hstart.frame
    subst hframe
    exact h.keep t th hfresh
  | framework hmove => cases hmove <;> exact h
  | @packet t length passive gen captured hthr hlength => exact h.keep t _ (by rw [hthr]; rfl)
  | @advance t choice next hadvance =>
    obtain hcount | ⟨hlocked, hreset, hafter⟩ := stepThread_pendingWrites hadvance (h.le t)
    · exact h.step t next.2 hcount
    · have hlock := (howned .write t).mpr (.inl hlocked)
      rw [WritesCounted, Driver.setThread_dev, hreset]
      refine Tally.zero fun i => ?_
      by_cases hi : i = t
      · rw [hi, Driver.setThread_self, hafter]
      · rw [Driver.setThread_of_ne _ _ _ _ hi, howned.pending_of_ne hlock hi]

end

theorem InstanceReach.writesCounted {ok : Instance → InstanceAction → Prop} {s : Instance} (h : InstanceReach ok s) :
    WritesCounted s.driver := by
  refine h.invariant (P := fun s => WritesCounted s.driver) (fun s hs => ?_) fun s a s' hreach hinv _ hstep => ?_
  · obtain ⟨mtu, -, -, rfl⟩ := hs
    exact Tally.zero fun _ => rfl
  · have hapart := InstanceReach.hardwareApart hreach
    cases stepInstance_cases hstep with
    | prepareHardware | releaseHardware => exact hinv
    | prepare _ hcallback =>
      rw [Instance.settlePrepare_dev]
      cases hcallback <;> exact hinv
    | @release t choice pc d flow hhardware hcallback =>
      rw [Instance.settleRelease_dev]
      obtain hsame | ⟨hlocked, hreset⟩ := hcallback.pendingWrites
      · rw [WritesCounted, hsame]
        exact hinv
      · -- the release has the lock, and its thread is no callback of the driver
        have hholder : s.hardware.lockHolder .write = some t := by
          rw [hhardware]
          exact if_pos hlocked
        have hlock := (hapart.owned .write t).mpr (.inr hholder)
        have hzero : ∀ i, (s.driver.thr i).pending = 0 := by
          intro i
          by_cases hi : i = t
          · rw [hi, hapart.idle t (Hardware.thread_of_lockHolder hholder)]
            rfl
          · exact hapart.owned.pending_of_ne hlock hi
        change Tally (fun i => (s.driver.thr i).pending) d.pendingWrites
        rw [hreset]
        exact Tally.zero hzero
    | driver _ hcallback => exact hinv.step hapart.owned hcallback

/-- `pending_writes` counts the WRITEs between their admission and their release, in every interleaving with each other
and with all teardown paths. There is never more than one, so no WRITE is turned away by the limit. -/
theorem pending_writes_exact {s : Instance} (h : InstanceReach Machine.Free s) :
    s.driver.dev.pendingWrites = {t | (s.driver.thr t).admitted = true}.ncard ∧ s.driver.dev.pendingWrites ≤ 1 ∧
      ∀ t handle input, s.driver.thr t = .write handle input .tryAdmit →
        tryAdmit s.driver.dev.pendingWrites pendingWriteLimit = some 1 := by
  have howned := h.hardwareApart.owned
  obtain ⟨hfinite, hcount⟩ := Tally.ncard (p := fun t => (s.driver.thr t).admitted = true) h.writesCounted
  have hholder : ∀ {t}, (s.driver.thr t).admitted = true → s.driver.dev.lock .write = some t := by
    intro t ht
    refine (howned .write t).mpr (.inl (Bool.eq_true_of_not_eq_false fun hunlocked => ?_))
    have hzero := Thread.pending_of_unlocked hunlocked
    rw [Thread.pending, if_pos ht] at hzero
    cases hzero
  refine ⟨hcount.symm, ?_, fun t handle input hthr => ?_⟩
  · rw [← hcount, Set.ncard_le_one hfinite]
    exact fun t ht i hi => Option.some.inj ((hholder ht).symm.trans (hholder hi))
  · -- a WRITE that is about to be admitted has the lock, so that no other one is
    have hlock := (howned .write t).mpr (.inl (by rw [hthr]; rfl))
    have hzero : s.driver.dev.pendingWrites = 0 := by
      refine h.writesCounted.sum_eq_zero fun i => ?_
      by_cases hi : i = t
      · rw [hi, hthr]
        rfl
      · exact howned.pending_of_ne hlock hi
    rw [hzero]
    rfl

/-- A WRITE of 60 bytes is admitted and is about to enqueue its frame. -/
def writing : List InstanceAction :=
  broughtUp ++ (.create 1 7 :: steps 1 2 ++ .write 2 7 ⟨60, statusSuccess, 60⟩ :: steps 2 5).map .driver

theorem pending_writes_exact_writing :
    let s := (instanceSystem.after (.added defaultMtu) writing).driver
    (s.thr 2).admitted = true ∧ s.dev.pendingWrites = 1 ∧
      s.dev.pendingWrites = {t | (s.thr t).admitted = true}.ncard := by
  intro s
  have hadmitted : (s.thr 2).admitted = true := by decide +kernel
  have hpending : s.dev.pendingWrites = 1 := by decide +kernel
  exact ⟨hadmitted, hpending, (pending_writes_exact (Machine.System.reach_after (instanceReach_added _) writing)).1⟩

end WinTap
