import WinTap.Base.Machine
import WinTap.Base.Tally
import WinTap.Base.Custody
import WinTap.Base.BoundedTable
import WinTap.Base.Cursor
import WinTap.Base.Keyed
import WinTap.Base.Paging
import WinTap.Base.Ring
import WinTap.Base.Splice
import WinTap.Base.Digits
import WinTap.Wait.Record
import WinTap.Wait.Routines
import WinTap.Wait.Protocol
import WinTap.Wait.Ownership
import WinTap.Driver.FrameQueue
import WinTap.Driver.FrameRing
import WinTap.Driver.Lease
import WinTap.Driver.State
import WinTap.Driver.DataPath
import WinTap.Driver.Packets
import WinTap.Driver.Lifecycle
import WinTap.Driver.System
import WinTap.Driver.Owners
import WinTap.Driver.Hardware
import WinTap.Driver.Admission
import WinTap.Driver.NetRings
import WinTap.Driver.ReceiveRing
import WinTap.Driver.TransmitRing
import WinTap.Driver.ReadDelivery
import WinTap.Driver.QueueCancel
import WinTap.Switch.Forwarding
import WinTap.Switch.History
import WinTap.Switch.BufferPool
import WinTap.Switch.Runtime
import WinTap.Switch.Process
import WinTap.Switch.Medium
import WinTap.Bus.HardwareId
import WinTap.Switch.EndpointGuid
import WinTap.Switch.Negotiation
import WinTap.Switch.WaitEvents
import WinTap.Bus.Registry
import WinTap.Bus.Manager
import WinTap.Bus.Enumeration
import WinTap.Proof.Wait.WorkItem
import WinTap.Proof.Wait.Ownership
import WinTap.Proof.Wait.Refinement
import WinTap.Proof.Wait.Effects
import WinTap.Proof.Wait.Completion
import WinTap.Proof.Wait.Quiescence
import WinTap.Proof.Wait.Sequence
import WinTap.Proof.Wait.Masks
import WinTap.Proof.Wait.Stopping
import WinTap.Proof.Wait.Wakeups
import WinTap.Proof.Driver.FrameRing
import WinTap.Proof.Driver.NetRings
import WinTap.Proof.Driver.QueueCancel
import WinTap.Proof.Driver.ReceiveRing
import WinTap.Proof.Driver.TransmitRing
import WinTap.Proof.Driver.Steps
import WinTap.Proof.Driver.Teardown
import WinTap.Proof.Driver.Frames
import WinTap.Proof.Driver.CaptureQueue
import WinTap.Proof.Driver.Locks
import WinTap.Proof.Driver.Steady
import WinTap.Proof.Driver.Reads
import WinTap.Proof.Driver.Mode
import WinTap.Proof.Driver.Captures
import WinTap.Proof.Driver.LegacyReads
import WinTap.Proof.Driver.Admission
import WinTap.Proof.Driver.Leases
import WinTap.Proof.Driver.Callbacks
import WinTap.Proof.Driver.Injection
import WinTap.Proof.Driver.Notification
import WinTap.Proof.Driver.PendingReads
import WinTap.Proof.Driver.CaptureOrder
import WinTap.Proof.Driver.Lifecycle
import WinTap.Proof.Driver.Waits
import WinTap.Proof.Driver.Stopping
import WinTap.Proof.Driver.Hardware
import WinTap.Proof.Driver.Quiesced
import WinTap.Proof.Driver.QueueStates
import WinTap.Proof.Driver.Cycles
import WinTap.Proof.Driver.Retired
import WinTap.Proof.Driver.HardwareLocks
import WinTap.Proof.Driver.Owner
import WinTap.Proof.Driver.Writes
import WinTap.Proof.Driver.Leaks
import WinTap.Proof.Driver.Traffic
import WinTap.Proof.Driver.Reopening
import WinTap.Proof.Driver.Isolation
import WinTap.Proof.Driver.Readiness
import WinTap.Proof.Driver.Wakeups
import WinTap.Proof.Driver.ReadDelivery
import WinTap.Proof.Switch.Forwarding
import WinTap.Proof.Switch.BufferPool
import WinTap.Proof.Switch.Runtime
import WinTap.Proof.Switch.Identity
import WinTap.Proof.Switch.Slots
import WinTap.Proof.Switch.Close
import WinTap.Proof.Switch.RingSteps
import WinTap.Proof.Switch.Medium
import WinTap.Proof.Switch.Sleep
import WinTap.Proof.Bus.HardwareId
import WinTap.Proof.Switch.EndpointGuid
import WinTap.Proof.Switch.Negotiation
import WinTap.Proof.Switch.WaitEvents
import WinTap.Proof.Bus.Registry
import WinTap.Proof.Bus.Enumeration
import WinTap.Proof.Bus.Removal
