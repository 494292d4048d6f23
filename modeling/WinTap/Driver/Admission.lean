import WinTap.Base.Machine
import WinTap.Driver.Lifecycle

/-!
# The lease protocol on its own

Any number of parties acquire and drop callback leases while others close and readmit the datapath for
any scope, in any order and not necessarily in pairs. Here an acquisition is the compare-exchange loop of
the source, with one step for its load and one for each exchange, which may fail spuriously.
-/

namespace WinTap

/-- A direction of the datapath. -/
inductive Side where
  | receive
  | capture
  deriving DecidableEq, Repr

/-- `rx_callback_leases` and `tx_callback_leases`. -/
structure LeaseWords where
  receive : Word
  capture : Word
  deriving DecidableEq, Repr

namespace LeaseWords

def word (w : LeaseWords) : Side → Word
  | .receive => w.receive
  | .capture => w.capture

def set (w : LeaseWords) (side : Side) (word : Word) : LeaseWords :=
  match side with
  | .receive => { w with receive := word }
  | .capture => { w with capture := word }

section
variable (w : LeaseWords) (side side' : Side) (word : Word)

@[simp] theorem word_set_self : (w.set side word).word side = word := by cases side <;> rfl

theorem word_set_of_ne (h : side' ≠ side) : (w.set side word).word side' = w.word side' := by
  cases side <;> cases side' <;> first | rfl | exact absurd rfl h

@[simp] theorem set_word : w.set side (w.word side) = w := by cases side <;> rfl

end

end LeaseWords

inductive AcquirePc where
  | load
  | exchange (observed : Word)
  deriving DecidableEq, Repr

/-- The head of the loop of `DatapathLease::acquire`, with the word it observed. -/
def observeLeases (observed : Word) : Flow AcquirePc Bool :=
  if observed &&& datapathClosedAny ≠ 0#64 ∨ observed &&& datapathLeaseCount = datapathLeaseCount then
    .ret false
  else .run (.exchange observed)

/-- `DatapathLease::acquire`. It returns whether the lease was granted. -/
def acquireLoop (w : Word) (spurious : Bool) : AcquirePc → Word × Flow AcquirePc Bool
  | .load => (w, observeLeases w)
  | .exchange observed =>
    if w = observed ∧ spurious = false then (observed + 1#64, .ret true) else (w, observeLeases w)

/-- `quiesce_datapath_callbacks`, on the two words. -/
def quiesceLeases (w : LeaseWords) (closer : Closer) : QuiescePc → Option (LeaseWords × Flow QuiescePc Unit)
  | .shutReceive => some ({ w with receive := shutLeases w.receive closer }, .run .shutCapture)
  | .shutCapture => some ({ w with capture := shutLeases w.capture closer }, .run .drainReceive)
  | .drainReceive => if leaseCount w.receive = 0 then some (w, .run .drainCapture) else none
  | .drainCapture => if leaseCount w.capture = 0 then some (w, .ret ()) else none

/-- `resume_datapath_callbacks`, on the two words. -/
def readmitLeases (w : LeaseWords) (closer : Closer) : ReadmitPc → LeaseWords × Flow ReadmitPc Unit
  | .receive => ({ w with receive := resumeLeases w.receive closer }, .run .capture)
  | .capture => ({ w with capture := resumeLeases w.capture closer }, .ret ())

/-- The two lease words of an instance. -/
def Device.leases (d : Device) : LeaseWords where
  receive := d.injection.callbackLeases
  capture := d.capture.callbackLeases

/-- The quiesce of the whole instance is the one of its two words. -/
theorem quiesceDatapathCallbacks_leases (d : Device) (closer : Closer) (pc : QuiescePc) :
    (quiesceDatapathCallbacks d closer pc).map (fun result => (result.1.leases, result.2))
      = quiesceLeases d.leases closer pc := by
  cases pc <;> simp only [quiesceDatapathCallbacks, quiesceLeases, Device.leases]
  case drainReceive | drainCapture =>
    split <;> simp [*]
  all_goals rfl

theorem resumeDatapathCallbacks_leases (d : Device) (closer : Closer) (pc : ReadmitPc) :
    ((resumeDatapathCallbacks d closer pc).1.leases, (resumeDatapathCallbacks d closer pc).2)
      = readmitLeases d.leases closer pc := by
  cases pc <;> rfl

theorem observeLeases_eq (w : Word) :
    observeLeases w = .ret false ∨ observeLeases w = .run (.exchange w) := by
  unfold observeLeases
  split
  · exact .inl rfl
  · exact .inr rfl

/-- An exchange that succeeds installs what the acquisition in one step does. -/
theorem acquireLoop_granted {w w' : Word} {spurious : Bool} {pc : AcquirePc}
    (hpc : ∀ observed, pc = .exchange observed → observeLeases observed = .run pc)
    (h : acquireLoop w spurious pc = (w', .ret true)) : acquireLease w = some w' := by
  cases pc with
  | load => obtain hw | hw := observeLeases_eq w <;> simp [acquireLoop, hw] at h
  | exchange observed =>
    have hopen := hpc observed rfl
    simp only [acquireLoop] at h
    split at h
    · rename_i hsame
      obtain rfl := hsame.1
      unfold observeLeases at hopen
      split at hopen
      · cases hopen
      · rename_i hfree
        rw [acquireLease, if_neg hfree]
        exact congrArg some (congrArg Prod.fst h)
    · obtain hw | hw := observeLeases_eq w <;> simp [hw] at h

/-! ### The system -/

inductive LeaseThread where
  | idle
  | acquire (side : Side) (pc : AcquirePc)
  /-- A live lease. -/
  | hold (side : Side)
  | quiesce (closer : Closer) (pc : QuiescePc)
  | resume (closer : Closer) (pc : ReadmitPc)
  deriving DecidableEq, Repr

structure LeaseWorld where
  words : LeaseWords
  thr : ThreadId → LeaseThread

inductive LeaseAction where
  | acquire (t : ThreadId) (side : Side)
  | quiesce (t : ThreadId) (closer : Closer)
  | resume (t : ThreadId) (closer : Closer)
  /-- The thread takes its next step; a held lease is dropped. -/
  | advance (t : ThreadId) (spurious : Bool)
  deriving DecidableEq, Repr

def stepLeaseThread (w : LeaseWords) (spurious : Bool) : LeaseThread → Option (LeaseWords × LeaseThread)
  | .idle => none
  | .acquire side pc =>
    let result := acquireLoop (w.word side) spurious pc
    some (w.set side result.1, match result.2 with
      | .run pc => .acquire side pc
      | .ret true => .hold side
      | .ret false => .idle)
  | .hold side => some (w.set side (dropLease (w.word side)), .idle)
  | .quiesce closer pc =>
    (quiesceLeases w closer pc).map fun result => (result.1, match result.2 with
      | .run pc => .quiesce closer pc
      | .ret () => .idle)
  | .resume closer pc =>
    let result := readmitLeases w closer pc
    some (result.1, match result.2 with
      | .run pc => .resume closer pc
      | .ret () => .idle)

namespace LeaseWorld

def set (s : LeaseWorld) (t : ThreadId) (w : LeaseWords) (th : LeaseThread) : LeaseWorld where
  words := w
  thr := Function.update s.thr t th

end LeaseWorld

def stepLease (s : LeaseWorld) : LeaseAction → Option LeaseWorld
  | .acquire t side =>
    if s.thr t = .idle then some (s.set t s.words (.acquire side .load)) else none
  | .quiesce t closer =>
    if s.thr t = .idle then some (s.set t s.words (.quiesce closer .shutReceive)) else none
  | .resume t closer =>
    if s.thr t = .idle then some (s.set t s.words (.resume closer .receive)) else none
  | .advance t spurious =>
    (stepLeaseThread s.words spurious (s.thr t)).map fun (w, th) => s.set t w th

/-- Any interleaving of acquisitions, drops, closings and readmissions. -/
def leaseSystem : Machine.System LeaseWorld LeaseAction where
  init s := s.words = ⟨0, 0⟩ ∧ ∀ t, s.thr t = .idle
  step := stepLease

/-- A state some interleaving of the lease protocol reaches. -/
def LeaseReach : LeaseWorld → Prop := Machine.Reach leaseSystem Machine.Free

end WinTap
