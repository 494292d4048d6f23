import WinTap.Driver.System

/-!
# The owners of captured frames

History beside a run of the driver: which owner of the control device a captured frame belongs to. The owners are
numbered by the cleanups that have advanced `owner_generation`, without the wrap of the 64-bit word. A TX callback
captures for the owner whose generation it read under its lease, so that is the owner of the packets it takes. A cleanup
closes for all owners up to the one it retired, and once it has cleared the capture queue their frames should be gone.

The history reads the driver and the driver never reads the history.
-/

namespace WinTap

structure Owners where
  driver : Driver
  /-- How many owners were retired: the number of the present one. -/
  retired : Nat
  /-- The owner that a TX callback captures for. -/
  snapshot : ThreadId → Nat
  /-- The first owner that the cleanup does not close for. -/
  closing : ThreadId → Nat
  /-- The owner of a captured frame, by the serial number of the frame. -/
  tag : Nat → Nat
  /-- The first owner that no cleanup has cleared the capture queue for. -/
  cleared : Nat

namespace Owners

/-- What the next step of a callback adds to the history. -/
def recordStep (s : Owners) (t : ThreadId) : Thread → Owners
  | .transmit _ .owner => { s with snapshot := Function.update s.snapshot t s.retired }
  | .cleanup _ .retire =>
    { s with retired := s.retired + 1, closing := Function.update s.closing t (s.retired + 1) }
  | .cleanup _ (.clear _ .capture) => { s with cleared := max s.cleared (s.closing t) }
  | _ => s

def record (s : Owners) : Action → Owners
  | .packet t _ => { s with tag := Function.update s.tag s.driver.dev.nextSerial (s.snapshot t) }
  | .advance t _ => s.recordStep t (s.driver.thr t)
  | _ => s

/-- The history of a driver that was brought up. -/
def start (driver : Driver) : Owners where
  driver := driver
  retired := 0
  snapshot := fun _ => 0
  closing := fun _ => 0
  tag := fun _ => 0
  cleared := 0

end Owners

def stepOwners (s : Owners) (a : Action) : Option Owners :=
  (stepDriver s.driver a).map fun driver => { s.record a with driver := driver }

/-- A run of the driver with its history. -/
def ownerSystem : Machine.System Owners Action where
  init s := ∃ driver, driverSystem.init driver ∧ s = .start driver
  step := stepOwners

abbrev OwnerReach (ok : Owners → Action → Prop) : Owners → Prop := Machine.Reach ownerSystem ok

end WinTap
