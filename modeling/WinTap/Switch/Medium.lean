import WinTap.Switch.History
import WinTap.Switch.Process

/-!
# The switch and its medium

The process alone cannot say what becomes of a frame: the bytes are in the registered buffers, and the kernel reads and
writes those at a time of its own choosing. Here the process runs beside the kernel. The kernel performs what was
submitted, in any order and while the process goes on: a read may change its buffer, and returns a frame when it
succeeds; a write takes its frame from its buffer when it succeeds, and takes nothing when it fails. A completion is
popped once its operation was performed, with the bytes that are in the buffer then.

The frames that reads returned and that writes took are kept as history, newest first, with the handle of the endpoint.
-/

namespace WinTap.SwitchRuntime

open SwitchCore Machine

/-- An entry that the kernel was given, and its result code and information once it was performed. -/
structure Job where
  entry : Entry
  outcome : Option (HResult × Nat)
  deriving DecidableEq, Repr

/-- An entry as the kernel is given it. -/
def Job.fresh (entry : Entry) : Job := ⟨entry, none⟩

/-- A frame at an endpoint. -/
abbrev Transfer := Handle × List UInt8

structure Medium where
  process : Process
  /-- The submitted entries, in the order of the ring. -/
  jobs : List Job
  /-- The registered buffers. -/
  memory : Nat → Nat → UInt8
  received : List Transfer
  sent : List Transfer

inductive MediumAction where
  /-- The process takes a step that pops nothing. -/
  | answer (answer : Answer)
  /-- The process pops the completion of an entry that was performed. -/
  | pop (index : Nat) (built : HResult)
  /-- The kernel performs an entry. -/
  | perform (index : Nat) (resultCode : HResult) (information : Nat) (data : Nat → UInt8)

/-- The first bytes of a buffer. -/
def bytesOf (length : Nat) (contents : Nat → UInt8) : List UInt8 := (List.range length).map contents

/-- What is in the buffer of an entry. -/
def Entry.contents (memory : Nat → Nat → UInt8) : Entry → Nat → UInt8
  | .read _ buffer _ _ | .write _ buffer _ _ => memory buffer
  | .cancel _ _ _ => fun _ => 0

def Answer.popsEntry : Answer → Bool
  | .pop (.popped _ _ _ _) _ => true
  | _ => false

/-- The next step of the process pops a completion, if there is one. -/
def Process.popsNext (c : Config) (s : Process) : Bool :=
  match s.pc with
  | .legacy | .legacyBatch | .adaptivePop _ _ | .reap => true
  | .drain => s.runtime.anyDrains c
  | _ => false

namespace Medium

variable (m : Medium)

/-- The process goes on, and the kernel is given what was submitted. -/
def resume (jobs : List Job) (process : Process) : Medium :=
  { m with
    process := process
    jobs := jobs ++ (process.runtime.ring.submitted.drop jobs.length).map Job.fresh }

def perform (index : Nat) (entry : Entry) (resultCode : HResult) (information : Nat) (data : Nat → UInt8) : Medium :=
  let m := { m with jobs := m.jobs.set index ⟨entry, some (resultCode, information)⟩ }
  match entry with
  | .read handle buffer length _ =>
    { m with
      memory := Function.update m.memory buffer fun k => if k < length then data k else m.memory buffer k
      received :=
        if resultCode = sOk ∧ information ≤ length then (handle, bytesOf information data) :: m.received
        else m.received }
  | .write handle buffer length _ =>
    { m with
      sent := if resultCode = sOk then (handle, bytesOf length (m.memory buffer)) :: m.sent else m.sent }
  | .cancel _ _ _ => m

end Medium

def stepMedium (c : Config) (m : Medium) : MediumAction → Option Medium
  | .answer answer =>
    if answer.popsEntry then none else (stepProcess c m.process answer).map (m.resume m.jobs)
  | .pop index built =>
    if m.process.popsNext c then
      match m.jobs[index]? with
      | some ⟨entry, some (resultCode, information)⟩ =>
        (stepProcess c m.process
          (.pop (.popped index resultCode information (entry.contents m.memory)) built)).map
          (m.resume (m.jobs.eraseIdx index))
      | _ => none
    else none
  | .perform index resultCode information data =>
    match m.jobs[index]? with
    | some ⟨entry, none⟩ => some (m.perform index entry resultCode information data)
    | _ => none

def startMedium (c : Config) (memory : Nat → Nat → UInt8) : Medium where
  process := startProcess c
  jobs := []
  memory := memory
  received := []
  sent := []

def mediumSystem (c : Config) : System Medium MediumAction where
  init m := ∃ memory, m = startMedium c memory
  step := stepMedium c

abbrev MediumReach (c : Config) (ok : Medium → MediumAction → Prop) : Medium → Prop := Reach (mediumSystem c) ok

/-! ### Where the frames are -/

/-- The frame of a read that was performed: it is in the buffer. -/
def Job.returned (memory : Nat → Nat → UInt8) : Job → Option Transfer
  | ⟨.read handle buffer length _, some (resultCode, information)⟩ =>
    if resultCode = sOk ∧ information ≤ length then some (handle, bytesOf information (memory buffer)) else none
  | _ => none

/-- The frame that a write still has to pass on: it is in the buffer. -/
def Job.owed (memory : Nat → Nat → UInt8) : Job → Option Transfer
  | ⟨.write handle buffer length _, outcome⟩ =>
    if outcome.any (·.1 = sOk) then none else some (handle, bytesOf length (memory buffer))
  | _ => none

/-- The entries that were built and whose completions have not been popped, in the order in which they were built. -/
def Medium.outstanding (m : Medium) : List Job := m.jobs ++ m.process.runtime.ring.queue.map Job.fresh

/-! ### What the switch is for -/

/-- The handle of an endpoint, as the write to a peer finds it. -/
def Config.handleOf (c : Config) (id : EndpointId) : Handle :=
  if id = c.first.id then c.first.handle else c.second.handle

/-- The frame of a call, at the endpoint it came from. -/
def Config.arrival (c : Config) (call : Call) : Transfer := (c.handleOf call.source, call.frame)

/-- What a call passes on: its frame, unchanged, to the first of the recipients that the switch answers with. -/
def Config.delivery (c : Config) (switch : Switch) (call : Call) : Option Transfer :=
  match (switch.call call).2 with
  | .ok (destination :: _) => some (c.handleOf destination, call.frame)
  | _ => none

/-- What a sequence of calls passes on, oldest first. -/
def Config.deliveries (c : Config) : Switch → List Call → List Transfer
  | _, [] => []
  | switch, call :: calls => (c.delivery switch call).toList ++ c.deliveries (switch.call call).1 calls

end WinTap.SwitchRuntime
