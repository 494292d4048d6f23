import WinTap.Driver.DataPath

/-!
# The packet queue callbacks

`capture_transmit_packets` takes frames from the TX ring and either delivers them to a waiting READ or
stores them; `inject_receive_frames` places queued frames into the RX ring. The rings belong to the
network stack: what the next TX packet is, and whether an RX descriptor is there and fits, is chosen by
the environment. TX packets whose fragments fail the validation are skipped by the source without any
effect on the shared state, so only the others appear, with the length of their frame.
-/

namespace WinTap

/-! ### TX: `capture_transmit_packets` -/

/-- Where a TX callback is in handling one packet. `deliver_transmit_packet_to_read` is entered at
`lockDirect` and left at `unlockDirect` with whether it delivered the frame. -/
inductive PacketPc where
  | adaptive
  | lockDirect
  | directAdaptive
  | directLifecycle
  | directOwner
  | retrieve
  | releaseRead (r : Read)
  | addClaim (r : Read)
  | complete (r : Read)
  | releaseClaim (delivered : Bool)
  | unlockDirect (delivered : Bool)
  | allocate
  | lifecycle
  | owner
  | loadAdaptive
  | store (adaptive : Bool) (pc : StorePc)
  deriving DecidableEq, Repr

/-- Handle one packet of the TX ring. It returns whether the frame was captured for a legacy READ. The
choice at `allocate` fails the frame allocation. -/
def capturePacket (d : Device) (t : ThreadId) (passive : Bool) (ownerGeneration : Word) (f : Frame)
    (choice : Choice) : PacketPc → Device × Flow PacketPc Bool
  | .adaptive => (d, .run (if !d.adaptiveEnabled && passive then .lockDirect else .allocate))
  | .lockDirect =>
    if d.legacyDirectReadLock = none then
      ({ d with legacyDirectReadLock := some t }, .run .directAdaptive)
    else (d, .run .allocate)
  | .directAdaptive =>
    (d, .run (if d.adaptiveEnabled then .unlockDirect false else .directLifecycle))
  | .directLifecycle =>
    (d, .run (if d.lifecycle ≠ .instanceOpen then .unlockDirect false else .directOwner))
  | .directOwner =>
    (d, .run (if d.ownerGeneration ≠ ownerGeneration then .unlockDirect false else .retrieve))
  | .retrieve =>
    match retrieveNextRequest d with
    | none => (d, .run (.unlockDirect false))
    | some (r, d') => (d', .run (.releaseRead r))
  | .releaseRead r =>
    ({ d with pendingReads := releaseRequest d.pendingReads }, .run (.addClaim r))
  | .addClaim r =>
    ({ d with legacyDirectReadClaims := d.legacyDirectReadClaims + 1 }, .run (.complete r))
  | .complete r =>
    let (d', status) := completeCapturedFrameToRead d r f choice
    if status = statusSuccess then (d', .run (.releaseClaim true))
    else (completeRead d r status none, .run (.releaseClaim false))
  | .releaseClaim delivered =>
    ({ d with legacyDirectReadClaims := releaseRequest d.legacyDirectReadClaims },
      .run (.unlockDirect delivered))
  | .unlockDirect delivered =>
    ({ d with legacyDirectReadLock := none }, if delivered then .ret false else .run .allocate)
  | .allocate => (d, if choice = none then .run .lifecycle else .ret false)
  | .lifecycle => (d, if d.lifecycle = .instanceOpen then .run .owner else .ret false)
  | .owner => (d, if d.ownerGeneration = ownerGeneration then .run .loadAdaptive else .ret false)
  | .loadAdaptive => (d, .run (.store d.adaptiveEnabled .enqueue))
  | .store adaptive pc =>
    call (enqueueExistingCaptureFrame d t f pc) (.store adaptive) fun stored =>
      .ret (stored && !adaptive)

inductive TxPc where
  | lease
  | lifecycle
  | owner
  /-- At the head of the loop, with `captured_for_legacy_read`. -/
  | ring (ownerGeneration : Word) (captured : Bool)
  | packet (ownerGeneration : Word) (captured : Bool) (f : Frame) (pc : PacketPc)
  | queueWork
  | drop
  deriving DecidableEq, Repr

/-- `evt_packet_queue_advance` on the TX queue. At the head of the loop this is the step that finds the
ring empty; the one that finds a packet is `takePacket`. -/
def advanceTransmit (d : Device) (t : ThreadId) (passive : Bool) (choice : Choice) :
    TxPc → Device × Flow TxPc Unit
  | .lease =>
    match acquireLease d.capture.callbackLeases with
    | none => (d, .ret ())
    | some leases => ({ d with capture.callbackLeases := leases }, .run .lifecycle)
  | .lifecycle => (d, .run (if d.lifecycle ≠ .instanceOpen then .drop else .owner))
  | .owner => (d, .run (.ring d.ownerGeneration false))
  | .ring _ captured => (d, .run (if captured then .queueWork else .drop))
  | .packet gen captured f pc =>
    call (capturePacket d t passive gen f choice pc) (.packet gen captured f) fun capturedThis =>
      .run (.ring gen (captured || capturedThis))
  | .queueWork => (enqueueWorkItem d, .run .drop)
  | .drop =>
    ({ d with capture.callbackLeases := dropLease d.capture.callbackLeases }, .ret ())

/-- The head of the TX loop finds a packet that passes the validation. -/
def takePacket (d : Device) (length : Nat) : TxPc → Option (Device × TxPc)
  | .ring gen captured =>
    if frameMinimum ≤ length ∧ length ≤ d.frameMaximum then
      some ({ d with nextSerial := d.nextSerial + 1 },
        .packet gen captured ⟨d.nextSerial, length⟩ .adaptive)
    else none
  | _ => none

/-! ### RX: `inject_receive_frames` -/

inductive RxPc where
  | lease
  | lifecycle
  | owner
  /-- At the head of the loop. -/
  | ring (ownerGeneration : Word)
  | dequeue (ownerGeneration : Word)
  | generation (ownerGeneration : Word) (f : Frame) (wasFull : Bool)
  | place (ownerGeneration : Word) (f : Frame) (wasFull : Bool)
  | claim (ownerGeneration : Word) (pc : ClaimPc)
  | requeueLifecycle (ownerGeneration : Word) (f : Frame)
  | requeueOwner (ownerGeneration : Word) (f : Frame)
  | requeueEnqueue (f : Frame)
  | requeueGeneration
  | drop
  deriving DecidableEq, Repr

/-- `evt_packet_queue_advance` on the RX queue. At the head of the loop a choice means that no descriptor
is left; at `place` it means that the descriptor is unusable or too small, and the frame goes back. -/
def advanceReceive (d : Device) (t : ThreadId) (choice : Choice) : RxPc → Device × Flow RxPc Unit
  | .lease =>
    match acquireLease d.injection.callbackLeases with
    | none => (d, .ret ())
    | some leases => ({ d with injection.callbackLeases := leases }, .run .lifecycle)
  | .lifecycle => (d, .run (if d.lifecycle ≠ .instanceOpen then .drop else .owner))
  | .owner => (d, .run (.ring d.ownerGeneration))
  | .ring gen => (d, .run (if choice = none then .dequeue gen else .drop))
  | .dequeue gen =>
    match d.injection.queue.dequeue with
    | none => (d, .run .drop)
    | some (f, queue) =>
      let wasFull :=
        decide (d.injection.queue.state = .opened ∧ d.injection.queue.len = frameQueueLimit)
      ({ d with injection.queue := queue }, .run (.generation gen f wasFull))
  | .generation gen f wasFull =>
    ({ d with injection.generation := d.injection.generation + 1 }, .run (.place gen f wasFull))
  | .place gen f wasFull =>
    if choice = none then
      ({ d with log := .indicated f :: d.log },
        .run (if wasFull then .claim gen .enabled else .ring gen))
    else (d, .run (.requeueLifecycle gen f))
  | .claim gen pc =>
    call (onCore d (claimWaitForPassiveCompletion d.env d.core t adaptiveInterestWritable none pc))
      (.claim gen) fun _ => .run (.ring gen)
  | .requeueLifecycle gen f =>
    (d, .run (if d.lifecycle = .instanceOpen then .requeueOwner gen f else .drop))
  | .requeueOwner gen f => (d, .run (if d.ownerGeneration = gen then .requeueEnqueue f else .drop))
  | .requeueEnqueue f =>
    match d.injection.queue.enqueue f with
    | .error _ => (d, .run .drop)
    | .ok queue => ({ d with injection.queue := queue }, .run .requeueGeneration)
  | .requeueGeneration =>
    ({ d with injection.generation := d.injection.generation + 1 }, .run .drop)
  | .drop =>
    ({ d with injection.callbackLeases := dropLease d.injection.callbackLeases }, .ret ())

/-! ### Notification -/

inductive NotificationPc where
  | arm (enabled : Bool)
  | queued
  | take
  | notify
  deriving DecidableEq, Repr

/-- `evt_packet_queue_set_notification_enabled` on the RX queue. -/
def setNotificationEnabled (d : Device) : NotificationPc → Device × Flow NotificationPc Unit
  | .arm enabled =>
    ({ d with rxNotificationArmed := enabled }, if enabled then .run .queued else .ret ())
  | .queued => (d, if d.injection.queue.isEmpty then .ret () else .run .take)
  | .take =>
    ({ d with rxNotificationArmed := false },
      if d.rxNotificationArmed then .run .notify else .ret ())
  | .notify => ({ d with log := .notified :: d.log }, .ret ())

end WinTap
