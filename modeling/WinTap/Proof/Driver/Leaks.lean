import WinTap.Proof.Driver.Owner
import WinTap.Proof.Driver.Writes

/-!
# What the callbacks leave behind

A lock, a callback lease, the admission of a WRITE and the claim on the control device are taken and given back by the
callbacks, on paths that may fail, be refused or be overtaken by teardown. Each of them is accounted for by the places
of the callbacks. So when no callback is running nothing of them is left, whatever has happened before.
-/

namespace WinTap

/-- No callback is running, and no hardware callback. -/
def Instance.Quiet (s : Instance) : Prop := (∀ t, s.driver.thr t = .idle) ∧ s.hardware.thread = none

/-- When no callback is running, the locks are free, no callback lease is counted in either direction, no WRITE is
pending, and the control device is taken exactly while a handle is open. -/
theorem nothing_leaks {s : Instance} (h : InstanceReach Machine.Free s) (hquiet : s.Quiet) :
    (∀ l, s.driver.dev.lock l = none) ∧ (∀ side, leaseCount (s.driver.dev.leases.word side) = 0) ∧
      s.driver.dev.pendingWrites = 0 ∧
      (s.driver.dev.controlOpen = true ↔ ∃ handle, s.driver.dev.handles handle = .opened) := by
  obtain ⟨hidle, hhardware⟩ := hquiet
  refine ⟨fun l => ?_, fun side => ?_, ?_, ?_⟩
  · by_contra htaken
    obtain ⟨t, ht⟩ := Option.ne_none_iff_exists'.mp htaken
    obtain hlocked | houtside := (h.hardwareApart.owned l t).mp ht
    · rw [hidle t] at hlocked
      cases hlocked
    · rw [Hardware.thread_of_lockHolder houtside] at hhardware
      cases hhardware
  · refine (h.leasesCounted side).sum_eq_zero fun t => ?_
    rw [hidle t]
    cases side <;> rfl
  · refine h.writesCounted.sum_eq_zero fun t => ?_
    rw [hidle t]
    rfl
  · obtain ⟨owner, howner, hflag⟩ := h.controlOwned.owner
    rw [hflag, Option.isSome_iff_exists]
    refine ⟨fun ⟨c, hc⟩ => ?_, fun ⟨handle, hopened⟩ => ⟨_, (howner (.handle handle)).mp hopened⟩⟩
    have hclaims := (howner c).mpr hc
    cases c with
    | handle handle => exact ⟨handle, hclaims⟩
    | thread t =>
      rw [Driver.Claims, hidle t] at hclaims
      cases hclaims

theorem InstanceReach.idle_of_notMem {s : Instance} {ts : List ThreadId}
    (h : InstanceReach (fun _ a => ∀ t, t ∈ a.thread → t ∈ ts) s) {t : ThreadId} (ht : t ∉ ts) :
    s.driver.thr t = .idle := by
  refine h.invariant (P := fun s => s.driver.thr t = .idle) (fun s hs => ?_) fun s a s' _ hbefore hok hstep => ?_
  · obtain ⟨mtu, -, -, rfl⟩ := hs
    rfl
  · cases stepInstance_cases hstep with
    | prepareHardware | releaseHardware => exact hbefore
    | prepare _ _ =>
      rw [Instance.settlePrepare_dev]
      exact hbefore
    | release _ _ =>
      rw [Instance.settleRelease_dev]
      exact hbefore
    | driver _ hcallback => exact (stepDriver_other hcallback fun hmem => ht (hok t hmem)).trans hbefore

/-- A handle is opened, a WRITE is completed, and the handle is closed. -/
def writtenAndClosed : List InstanceAction :=
  broughtUp ++ (.create 1 7 :: steps 1 2 ++ .write 2 7 ⟨60, statusSuccess, 60⟩ :: steps 2 11 ++
    .cleanup 1 7 :: steps 1 31).map .driver

theorem nothing_leaks_closed :
    let s := instanceSystem.after (.added defaultMtu) writtenAndClosed
    s.driver.dev.handles 7 = .closed ∧ s.driver.dev.lock .write = none ∧ s.driver.dev.pendingWrites = 0 ∧
      s.driver.dev.controlOpen = false := by
  intro s
  have hclosed : s.driver.dev.handles 7 = .closed := by decide +kernel
  have hopen : s.driver.dev.controlOpen = false := by decide +kernel
  have hquiet : s.Quiet := by
    refine ⟨fun t => ?_, by decide +kernel⟩
    by_cases ht : t ∈ [0, 1, 2]
    · revert t
      decide +kernel
    · refine InstanceReach.idle_of_notMem (Machine.System.reach_after_of (fun _ => ?_) (instanceReach_added _)) ht
      decide +kernel
  obtain ⟨hlocks, -, hpending, -⟩ := nothing_leaks (Machine.System.reach_after (instanceReach_added _) _) hquiet
  exact ⟨hclosed, hlocks .write, hpending, hopen⟩

end WinTap
