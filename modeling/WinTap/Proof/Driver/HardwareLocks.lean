import WinTap.Proof.Driver.Locks
import WinTap.Proof.Driver.Quiesced

/-!
# The locks beside a hardware callback

`evt_device_release_hardware` takes the locks that cleanups, power transitions and WRITEs take, on a thread of its own.
So a lock that is taken names a callback of the driver that has it, or the release.
-/

namespace WinTap

variable {t : ThreadId} {hw : Hardware}

def ReleasePc.locked : Lock → ReleasePc → Bool
  | .state, .zeroWrites | .state, .stopTransmit | .state, .stopReceive | .state, .disarm | .state, .dropAdapter
  | .state, .closed => true
  | .state, _ => false
  | _, .closeLifecycle | _, .stopAdapter .. | _, .quiesce .. | _, .lockDirect _ => false
  | .write, .lockWrite _ | .write, .unlockDirect => false
  | _, _ => true

/-- The lock is held by a hardware callback. -/
def Hardware.lockHolder (hw : Hardware) (l : Lock) : Option ThreadId :=
  match hw with
  | .releasing t pc => if pc.locked l then some t else none
  | _ => none

theorem ReleaseStep.lock {d d' : Device} {choice : Choice} {pc : ReleasePc} {flow : Flow ReleasePc Unit}
    (h : ReleaseStep d t choice pc d' flow) (l : Lock) :
    LockStep l t (pc.locked l) d (flow.on (ReleasePc.locked l) false) d' := by
  cases h with
  | zeroReads hlock | lockDirect adaptive hlock | lockWrite adaptive hlock =>
    cases l <;> first | exact .take rfl rfl hlock rfl | exact .keep rfl rfl
  | closed | unlockWrite | unlockDirect =>
    cases l <;> first | exact .drop rfl rfl rfl | exact .keep rfl rfl
  | _ => cases l <;> exact .keep rfl rfl

/-- The holder outside the driver's own callbacks takes or drops a lock. -/
theorem LocksOwned.outside_step {s : Driver} {before after : Lock → Bool} {d : Device}
    (h : LocksOwned (fun l => if before l then some t else none) s) (hidle : s.thr t = .idle)
    (hlock : ∀ l, LockStep l t (before l) s.dev (after l) d) :
    LocksOwned (fun l => if after l then some t else none) { s with dev := d } := by
  intro l i
  have hbefore : s.dev.lock l = some i ↔ (s.thr i).locked l = true ∨ before l = true ∧ t = i := by
    rw [h l i]
    simp
  have hgoal : (if after l then some t else none) = some i ↔ after l = true ∧ t = i := by simp
  change d.lock l = some i ↔ (s.thr i).locked l = true ∨ (if after l then some t else none) = some i
  rw [hgoal]
  have hfree : (s.thr t).locked l = false := by
    rw [hidle]
    rfl
  obtain ⟨hsame, hdev⟩ | ⟨-, hafter, hnone, hdev⟩ | ⟨hmine, hafter, hdev⟩ := hlock l
  · rw [hdev, hsame, hbefore]
  · have hothers : (s.thr i).locked l ≠ true := fun hi => by
      rw [hbefore.mpr (.inl hi)] at hnone
      cases hnone
    rw [hdev, hafter, Option.some.injEq]
    exact ⟨fun hi => .inr ⟨rfl, hi⟩, fun hi => (hi.resolve_left hothers).2⟩
  · rw [hdev, hafter]
    refine iff_of_false nofun ?_
    rintro (hi | ⟨hi, -⟩)
    · have hheld := (h l t).mpr (.inr (if_pos hmine))
      rw [hbefore.mpr (.inl hi)] at hheld
      cases hheld
      rw [hfree] at hi
      cases hi
    · cases hi

/-- The locks name their holders, and the thread of a hardware callback runs nothing else. -/
structure HardwareApart (s : Instance) : Prop where
  owned : LocksOwned s.hardware.lockHolder s.driver
  idle : ∀ t, s.hardware.thread = some t → s.driver.thr t = .idle

theorem Hardware.allows_thread {a : Action} (h : hw.allows a = true) (ht : t ∈ a.thread) : hw.thread ≠ some t := by
  obtain ⟨hall, -⟩ := Bool.and_eq_true_iff.mp h
  rw [ht, Option.all_some] at hall
  exact of_decide_eq_true hall

theorem Hardware.thread_of_lockHolder {l : Lock} (h : hw.lockHolder l = some t) : hw.thread = some t := by
  cases hw with
  | releasing u pc =>
    simp only [Hardware.lockHolder] at h
    split at h
    · exact h
    · cases h
  | _ => cases h

theorem HardwareApart.step {s s' : Instance} {a : InstanceAction} (h : HardwareApart s)
    (hstep : stepInstance s a = some s') : HardwareApart s' := by
  cases stepInstance_cases hstep with
  | @prepareHardware t hhardware hidle =>
    refine ⟨?_, ?_⟩
    · have howned := h.owned
      rw [hhardware] at howned
      exact howned
    · rintro u ⟨⟩
      exact hidle
  | @releaseHardware t hhardware hpower hidle =>
    refine ⟨?_, ?_⟩
    · have hnone : (Hardware.releasing t .closeLifecycle).lockHolder = s.hardware.lockHolder := by
        funext l
        obtain hhardware | hhardware := hhardware <;> rw [hhardware] <;> cases l <;> rfl
      have howned := h.owned
      rwa [← hnone] at howned
    · rintro u ⟨⟩
      exact hidle
  | @prepare t choice pc d flow hhardware hcallback =>
    have hlock : ∀ l, d.lock l = s.driver.dev.lock l := by
      intro l
      cases hcallback <;> cases l <;> rfl
    have hnone : ∀ l, (s.settlePrepare t (d, flow)).hardware.lockHolder l = s.hardware.lockHolder l := by
      intro l
      rw [hhardware]
      cases flow with
      | run pc => rfl
      | ret outcome =>
        simp only [Instance.settlePrepare]
        split <;> rfl
    refine ⟨?_, ?_⟩
    · intro l i
      rw [hnone l, Instance.settlePrepare_dev, hlock l]
      exact h.owned l i
    · intro u hu
      have hsame : s.hardware.thread = some u := by
        rw [hhardware]
        cases flow with
        | run pc => exact hu
        | ret outcome =>
          simp only [Instance.settlePrepare] at hu
          split at hu <;> cases hu
      rw [Instance.settlePrepare_dev]
      exact h.idle u hsame
  | @release t choice pc d flow hhardware hcallback =>
    have hidle : s.driver.thr t = .idle := h.idle t (by rw [hhardware]; rfl)
    have howned : LocksOwned (fun l => if pc.locked l then some t else none) s.driver := by
      have howned := h.owned
      rw [hhardware] at howned
      exact howned
    have hnext := howned.outside_step hidle fun l => hcallback.lock l
    refine ⟨?_, ?_⟩
    · rw [Instance.settleRelease_dev]
      cases flow with
      | run pc => exact hnext
      | ret value => exact hnext
    · intro u hu
      rw [Instance.settleRelease_dev]
      cases flow with
      | run pc =>
        cases hu
        exact hidle
      | ret value => cases hu
  | @driver a driver hallows hcallback =>
    refine ⟨?_, ?_⟩
    · refine h.owned.step (fun t ht l hl => ?_) hcallback
      exact Hardware.allows_thread hallows ht (Hardware.thread_of_lockHolder hl)
    · intro u hu
      have hother : u ∉ a.thread := fun hmem => Hardware.allows_thread hallows hmem hu
      rw [stepDriver_other hcallback hother]
      exact h.idle u hu

theorem InstanceReach.hardwareApart {ok : Instance → InstanceAction → Prop} {s : Instance} (h : InstanceReach ok s) :
    HardwareApart s := by
  refine h.invariant (fun s hs => ?_) fun _ _ _ _ hinv _ hstep => hinv.step hstep
  obtain ⟨mtu, -, -, rfl⟩ := hs
  refine ⟨?_, nofun⟩
  intro l t
  cases l <;> exact iff_of_false nofun (by rintro (h | h) <;> cases h)

end WinTap
