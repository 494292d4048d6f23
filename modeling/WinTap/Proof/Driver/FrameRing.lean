import WinTap.Base.Ring
import WinTap.Driver.FrameRing

/-!
# The ring refines the list of frames

`Represents` says when a ring stands for a list of frames: the slots from the head on hold them, and the counts are
those of the list. Every operation on a ring that stands for a list runs without a fault, answers what the operation on
the list answers and leaves a ring that stands for the list left. So does every sequence of operations on a new ring,
whatever its limits; with a limit of zero no frame is ever accepted and no remainder is taken.
-/

namespace WinTap

variable {q : FrameQueue} {f : Frame} {r : FrameRing}

/-- The ring stands for the queue. -/
structure FrameRing.Represents (r : FrameRing) (q : FrameQueue) : Prop where
  laid : Ring.Laid r.frames r.head q.frames
  slots : r.frames.length = r.limit
  small : r.limit * frameSize < 2 ^ (usizeBits - 1)
  head : r.head < r.limit ∨ r.head = 0
  length : r.length = q.frames.length
  bytes : r.bytes = q.bytes
  budget : r.bytes ≤ r.byteLimit
  wide : r.byteLimit < usizeLimit
  limit : r.limit = q.limit
  byteLimit : r.byteLimit = q.byteLimit
  state : r.state = q.state

namespace FrameRing.Represents

theorem checkCapacity_eq (h : r.Represents q) (n : Nat) : r.checkCapacity n = q.checkCapacity n := by
  rw [FrameRing.checkCapacity, FrameQueue.checkCapacity, h.state, h.byteLimit, h.bytes, h.limit, h.length]
  rfl

theorem length_le (h : r.Represents q) : r.length ≤ r.limit := by
  rw [h.length, ← h.slots]
  exact h.laid.fits

/-- Positions in the ring stay far from the end of `usize`. -/
theorem position_lt (h : r.Represents q) : r.head + r.length + 1 < usizeLimit := by
  have hsmall := h.small
  have hlength := h.length_le
  have hhead := h.head
  unfold frameSize usizeBits at hsmall
  unfold usizeLimit usizeBits
  omega

end FrameRing.Represents

theorem FrameQueue.checkCapacity_ok {n : Nat} (h : q.checkCapacity n = .ok ()) :
    q.state = .opened ∧ q.frames.length < q.limit ∧ q.bytes + n ≤ q.byteLimit := by
  unfold FrameQueue.checkCapacity at h
  split at h
  · cases h
  rename_i hstate
  split at h
  · cases h
  split at h
  · cases h
  rename_i hroom
  rw [not_or] at hroom
  unfold FrameQueue.len at hroom
  exact ⟨not_not.mp hstate, by omega, by omega⟩

namespace FrameRing.Represents

theorem enqueue_refused (h : r.Represents q) {e : QueueError} (he : q.checkCapacity f.length = .error e) :
    r.enqueue f = .ok (.error e, r) := by
  have hcapacity := (h.checkCapacity_eq f.length).trans he
  unfold FrameRing.enqueue
  by_cases hstate : r.state = .opened
  · rw [if_neg (not_not.mpr hstate), hcapacity]
    rfl
  · rw [FrameRing.checkCapacity, if_pos hstate] at hcapacity
    cases hcapacity
    rw [if_pos hstate]
    rfl

theorem enqueue_accepted (h : r.Represents q) (hok : q.checkCapacity f.length = .ok ()) :
    ∃ r', r.enqueue f = .ok (.ok (), r') ∧ r'.Represents { q with frames := q.frames ++ [f] } := by
  obtain ⟨hopen, hroom, hbytes⟩ := FrameQueue.checkCapacity_ok hok
  have hcapacity := (h.checkCapacity_eq f.length).trans hok
  have hposition := h.position_lt
  have hwide := h.wide
  have hfree : q.frames.length < r.frames.length := by rwa [h.slots, h.limit]
  have hadd : addUsize r.head r.length = .ok (r.head + r.length) := if_pos (by omega)
  have hrem : remUsize (r.head + r.length) r.limit = .ok ((r.head + r.length) % r.limit) := by
    refine if_neg ?_
    rw [h.limit]
    omega
  have hwrite : writeSlot r.frames ((r.head + r.length) % r.limit) f
      = .ok (r.frames.set ((r.head + r.length) % r.limit) (some f)) := by
    have hvacant := h.laid.vacant hfree
    rw [h.slots, ← h.length] at hvacant
    rw [writeSlot, hvacant]
  have hlength : addUsize r.length 1 = .ok (r.length + 1) := if_pos (by omega)
  have hsum : addUsize r.bytes f.length = .ok (r.bytes + f.length) := by
    refine if_pos ?_
    rw [h.bytes]
    rw [h.byteLimit] at hwide
    omega
  refine ⟨{ r with
      frames := r.frames.set ((r.head + r.length) % r.limit) (some f), length := r.length + 1
      bytes := r.bytes + f.length }, ?_, ?_⟩
  · unfold FrameRing.enqueue
    rw [if_neg (not_not.mpr (h.state.trans hopen)), hcapacity]
    simp only [hadd, hrem, hwrite, hlength, hsum, bind, Except.bind, pure, Except.pure]
  · have hlaid := h.laid.push hfree f
    rw [h.slots, ← h.length] at hlaid
    have hbytes' : r.bytes + f.length = FrameQueue.bytes { q with frames := q.frames ++ [f] } := by
      simp [FrameQueue.bytes, h.bytes]
    exact {
      laid := hlaid
      slots := (List.length_set).trans h.slots
      small := h.small
      head := h.head
      length := by simp [h.length]
      bytes := hbytes'
      budget := by
        change r.bytes + f.length ≤ r.byteLimit
        rw [h.bytes, h.byteLimit]
        exact hbytes
      wide := h.wide
      limit := h.limit
      byteLimit := h.byteLimit
      state := h.state }

theorem dequeue_empty (h : r.Represents q) (hempty : q.frames = []) : r.dequeue = .ok (none, r) := by
  have hlength : r.length = 0 := by rw [h.length, hempty, List.length_nil]
  unfold FrameRing.dequeue
  rw [if_pos hlength]
  rfl

theorem dequeue_front (h : r.Represents q) {rest : List Frame} (hframes : q.frames = f :: rest) :
    ∃ r', r.dequeue = .ok (some f, r') ∧ r'.Represents { q with frames := rest } := by
  have hlaid := h.laid
  rw [hframes] at hlaid
  have hpos : 0 < r.limit := h.slots ▸ hlaid.pos
  have hhead : r.head < r.limit := h.head.elim id fun hzero => by omega
  have hlength : r.length = rest.length + 1 := by rw [h.length, hframes, List.length_cons]
  have hbytes : r.bytes = f.length + (rest.map Frame.length).sum := by
    rw [h.bytes, FrameQueue.bytes, hframes, List.map_cons, List.sum_cons]
  have hposition := h.position_lt
  have hread : assumeInitRead r.frames r.head = .ok (f, r.frames.set r.head none) := by
    have hfront := hlaid.front
    rw [h.slots, Nat.mod_eq_of_lt hhead] at hfront
    rw [assumeInitRead, hfront]
  have hadd : addUsize r.head 1 = .ok (r.head + 1) := if_pos (by omega)
  have hrem : remUsize (r.head + 1) r.limit = .ok ((r.head + 1) % r.limit) := if_neg (by omega)
  have hless : subUsize r.length 1 = .ok rest.length := by
    rw [subUsize, if_pos (by omega), hlength, Nat.add_sub_cancel]
  have hrest : subUsize r.bytes f.length = .ok (rest.map Frame.length).sum := by
    rw [subUsize, if_pos (by omega), hbytes, Nat.add_sub_cancel_left]
  refine ⟨{ r with
      frames := r.frames.set r.head none, head := (r.head + 1) % r.limit, length := rest.length
      bytes := (rest.map Frame.length).sum }, ?_, ?_⟩
  · unfold FrameRing.dequeue
    rw [if_neg (by omega)]
    simp only [hread, hadd, hrem, hless, hrest, bind, Except.bind, pure, Except.pure]
  · have hpop := hlaid.pop
    rw [h.slots, Nat.mod_eq_of_lt hhead] at hpop
    have hbudget := h.budget
    exact {
      laid := hpop
      slots := (List.length_set).trans h.slots
      small := h.small
      head := .inl (Nat.mod_lt _ hpos)
      length := rfl
      bytes := rfl
      budget := by
        change (rest.map Frame.length).sum ≤ r.byteLimit
        omega
      wide := h.wide
      limit := h.limit
      byteLimit := h.byteLimit
      state := h.state }

/-- The loop takes out every frame, in order. -/
theorem clearLoop (h : r.Represents q) {rounds : Nat} (hrounds : q.frames.length < rounds) :
    ∃ r', r.clearLoop rounds = .ok (q.frames, r') ∧ r'.Represents { q with frames := [] } := by
  obtain ⟨frames, limit, byteLimit, state⟩ := q
  induction frames generalizing r rounds with
  | nil =>
    obtain ⟨rounds, rfl⟩ := Nat.exists_eq_add_one.mpr (Nat.zero_lt_of_lt hrounds)
    refine ⟨r, ?_, h⟩
    rw [FrameRing.clearLoop, h.dequeue_empty rfl]
    rfl
  | cons f rest ih =>
    obtain ⟨rounds, rfl⟩ := Nat.exists_eq_add_one.mpr (Nat.zero_lt_of_lt hrounds)
    obtain ⟨r₁, hdequeue, hrest⟩ := h.dequeue_front rfl
    obtain ⟨r₂, hloop, hempty⟩ := ih hrest (Nat.lt_of_succ_lt_succ hrounds)
    refine ⟨r₂, ?_, hempty⟩
    rw [FrameRing.clearLoop, hdequeue]
    simp only [bind, Except.bind, hloop]
    rfl

theorem clearFrames (h : r.Represents q) :
    ∃ r', r.clearFrames = .ok (q.frames, r') ∧ r'.Represents { q with frames := [] } :=
  h.clearLoop (by rw [h.length]; exact Nat.lt_succ_self _)

theorem drop (h : r.Represents q) : r.drop = .ok q.frames := by
  obtain ⟨r', hclear, -⟩ := h.clearFrames
  rw [FrameRing.drop, hclear]
  rfl

theorem withState (h : r.Represents q) (state : QueueState) :
    { r with state := state }.Represents { q with state := state } :=
  { h with state := rfl }

theorem apply (h : r.Represents q) (op : QueueOp) :
    ∃ r', r.apply op = .ok ((q.apply op).1, r') ∧ r'.Represents (q.apply op).2 := by
  cases op with
  | enqueue f =>
    cases hcapacity : q.checkCapacity f.length with
    | error e =>
      refine ⟨r, ?_, ?_⟩
      · rw [FrameRing.apply, h.enqueue_refused hcapacity, FrameQueue.apply, FrameQueue.enqueue, hcapacity]
        rfl
      · rwa [FrameQueue.apply, FrameQueue.enqueue, hcapacity]
    | ok u =>
      obtain ⟨r', henqueue, hr'⟩ := h.enqueue_accepted hcapacity
      refine ⟨r', ?_, ?_⟩
      · rw [FrameRing.apply, henqueue, FrameQueue.apply, FrameQueue.enqueue, hcapacity]
        rfl
      · rwa [FrameQueue.apply, FrameQueue.enqueue, hcapacity]
  | checkCapacity n => exact ⟨r, by rw [FrameRing.apply, h.checkCapacity_eq]; rfl, h⟩
  | dequeue =>
    cases hframes : q.frames with
    | nil =>
      refine ⟨r, ?_, ?_⟩
      · rw [FrameRing.apply, h.dequeue_empty hframes, FrameQueue.apply, FrameQueue.dequeue, hframes]
        rfl
      · rwa [FrameQueue.apply, FrameQueue.dequeue, hframes]
    | cons f rest =>
      obtain ⟨r', hdequeue, hr'⟩ := h.dequeue_front hframes
      refine ⟨r', ?_, ?_⟩
      · rw [FrameRing.apply, hdequeue, FrameQueue.apply, FrameQueue.dequeue, hframes]
        rfl
      · rwa [FrameQueue.apply, FrameQueue.dequeue, hframes]
  | beginClose =>
    refine ⟨r.beginClose, rfl, ?_⟩
    change r.beginClose.Represents q.beginClose
    unfold FrameRing.beginClose FrameQueue.beginClose
    rw [h.state]
    split
    · exact h.withState .closing
    · exact h
  | close =>
    obtain ⟨r', hclear, hr'⟩ := h.clearFrames
    refine ⟨{ r' with state := .closed }, ?_, hr'.withState .closed⟩
    rw [FrameRing.apply, FrameRing.close, hclear]
    rfl
  | reopen =>
    obtain ⟨r', hclear, hr'⟩ := h.clearFrames
    refine ⟨{ r' with state := .opened }, ?_, hr'.withState .opened⟩
    rw [FrameRing.apply, FrameRing.reopen, hclear]
    rfl

theorem run (h : r.Represents q) (ops : List QueueOp) :
    ∃ r', r.run ops = .ok ((q.run ops).1, r') ∧ r'.Represents (q.run ops).2 := by
  induction ops generalizing r q with
  | nil => exact ⟨r, rfl, h⟩
  | cons op ops ih =>
    obtain ⟨r₁, happly, h₁⟩ := h.apply op
    obtain ⟨r₂, hrun, h₂⟩ := ih h₁
    refine ⟨r₂, ?_, h₂⟩
    rw [FrameRing.run, happly]
    simp only [bind, Except.bind, hrun]
    rfl

end FrameRing.Represents

theorem FrameRing.tryNew_represents {limit byteLimit : Nat} {allocated : Bool} (hwide : byteLimit < usizeLimit)
    (h : FrameRing.tryNew limit byteLimit allocated = .ok r) : r.Represents (.tryNew limit byteLimit) := by
  unfold FrameRing.tryNew at h
  split at h
  · rename_i hsmall
    cases h
    exact {
      laid := Ring.Laid.empty limit 0
      slots := List.length_replicate
      small := hsmall.1
      head := .inr rfl
      length := rfl
      bytes := rfl
      budget := Nat.zero_le _
      wide := hwide
      limit := rfl
      byteLimit := rfl
      state := rfl }
  · cases h

/-! ### The list of frames -/

namespace FrameQueue

/-- A frame is accepted when the queue is open and the frame fits, and otherwise changes nothing. -/
theorem apply_enqueue (q : FrameQueue) (f : Frame) :
    q.apply (.enqueue f) =
      if q.state = .opened ∧ q.frames.length < q.limit ∧ (q.frames.map Frame.length).sum + f.length ≤ q.byteLimit then
        (.result (.ok ()), { q with frames := q.frames ++ [f] })
      else (.result (.error (if q.state = .opened then .full else .closed)), q) := by
  rw [FrameQueue.apply, FrameQueue.enqueue]
  cases hcapacity : q.checkCapacity f.length with
  | ok u => exact (if_pos (checkCapacity_ok hcapacity)).symm
  | error e =>
    have hrefused : ¬(q.state = .opened ∧ q.frames.length < q.limit ∧
        (q.frames.map Frame.length).sum + f.length ≤ q.byteLimit) := by
      rintro ⟨hopen, hroom, hbytes⟩
      have hok := enqueue_ok hopen hroom hbytes
      rw [FrameQueue.enqueue, hcapacity] at hok
      cases hok
    rw [if_neg hrefused]
    unfold FrameQueue.checkCapacity at hcapacity
    split at hcapacity
    · rename_i hstate
      cases hcapacity
      rw [if_neg hstate]
    · rename_i hstate
      rw [if_pos (not_not.mp hstate)]
      split at hcapacity
      · cases hcapacity
        rfl
      · split at hcapacity <;> cases hcapacity
        rfl

/-- An operation moves frames in at the end and out at the front. -/
theorem apply_frames (q : FrameQueue) (op : QueueOp) :
    q.frames ++ op.accepted (q.apply op).1 = (q.apply op).1.removed ++ (q.apply op).2.frames := by
  cases op with
  | enqueue f =>
    rw [apply_enqueue]
    split <;> simp [QueueOp.accepted, QueueReply.removed]
  | checkCapacity n => simp [FrameQueue.apply, QueueOp.accepted, QueueReply.removed]
  | dequeue =>
    cases hframes : q.frames with
    | nil => simp [FrameQueue.apply, FrameQueue.dequeue, hframes, QueueOp.accepted, QueueReply.removed]
    | cons f rest => simp [FrameQueue.apply, FrameQueue.dequeue, hframes, QueueOp.accepted, QueueReply.removed]
  | beginClose =>
    simp only [FrameQueue.apply, FrameQueue.beginClose]
    split <;> simp [QueueOp.accepted, QueueReply.removed]
  | close | reopen => simp [FrameQueue.apply, QueueOp.accepted, QueueReply.removed]

/-- The frames that came in are the ones that went out and then the ones that are there, in order. -/
theorem run_frames (q : FrameQueue) (ops : List QueueOp) :
    q.frames ++ acceptedFrames ops (q.run ops).1 = removedFrames (q.run ops).1 ++ (q.run ops).2.frames := by
  induction ops generalizing q with
  | nil => simp [FrameQueue.run, acceptedFrames, removedFrames]
  | cons op ops ih =>
    have hfirst := q.apply_frames op
    have hrest := ih (q.apply op).2
    have hrun : q.run (op :: ops) = ((q.apply op).1 :: ((q.apply op).2.run ops).1, ((q.apply op).2.run ops).2) := rfl
    have haccepted : acceptedFrames (op :: ops) (q.run (op :: ops)).1
        = op.accepted (q.apply op).1 ++ acceptedFrames ops ((q.apply op).2.run ops).1 := by
      rw [hrun]
      rfl
    have hremoved : removedFrames (q.run (op :: ops)).1
        = (q.apply op).1.removed ++ removedFrames ((q.apply op).2.run ops).1 := by
      rw [hrun]
      rfl
    rw [haccepted, hremoved, hrun, ← List.append_assoc, hfirst, List.append_assoc, hrest, List.append_assoc]

theorem apply_limits (q : FrameQueue) (op : QueueOp) :
    (q.apply op).2.limit = q.limit ∧ (q.apply op).2.byteLimit = q.byteLimit := by
  cases op with
  | enqueue f =>
    rw [apply_enqueue]
    split <;> exact ⟨rfl, rfl⟩
  | dequeue =>
    cases hframes : q.frames <;> simp [FrameQueue.apply, FrameQueue.dequeue, hframes]
  | beginClose =>
    simp only [FrameQueue.apply, FrameQueue.beginClose]
    split <;> exact ⟨rfl, rfl⟩
  | checkCapacity | close | reopen => exact ⟨rfl, rfl⟩

theorem run_limits (q : FrameQueue) (ops : List QueueOp) :
    (q.run ops).2.limit = q.limit ∧ (q.run ops).2.byteLimit = q.byteLimit := by
  induction ops generalizing q with
  | nil => exact ⟨rfl, rfl⟩
  | cons op ops ih =>
    obtain ⟨hlimit, hbytes⟩ := q.apply_limits op
    obtain ⟨hlimit', hbytes'⟩ := ih (q.apply op).2
    exact ⟨hlimit'.trans hlimit, hbytes'.trans hbytes⟩

end FrameQueue

/-! ### The refinement -/

/-- Every sequence of operations on a new ring runs without a fault and answers what the list of frames answers; the
frames of the list lie in the slots from the head on, no other slot holds one, the bytes are their sum, and every frame
that was accepted is still there or went out once, in order. -/
theorem frame_ring_refines_fifo {limit byteLimit : Nat} {allocated : Bool} {r : FrameRing}
    (hwide : byteLimit < usizeLimit) (hnew : FrameRing.tryNew limit byteLimit allocated = .ok r)
    (ops : List QueueOp) :
    ∃ replies r' q', FrameQueue.run (.tryNew limit byteLimit) ops = (replies, q') ∧ r.run ops = .ok (replies, r') ∧
      r'.state = q'.state ∧ r'.length = q'.frames.length ∧ r'.bytes = (q'.frames.map Frame.length).sum ∧
      r'.bytes ≤ byteLimit ∧
      (∀ i f, q'.frames[i]? = some f → r'.frames[(r'.head + i) % limit]? = some (some f)) ∧
      (∀ j < limit, (∃ f, r'.frames[j]? = some (some f)) ↔ ∃ i < r'.length, j = (r'.head + i) % limit) ∧
      acceptedFrames ops replies = removedFrames replies ++ q'.frames ∧ r'.drop = .ok q'.frames ∧
      ∀ f, q'.apply (.enqueue f) =
        if q'.state = .opened ∧ q'.frames.length < limit ∧
            (q'.frames.map Frame.length).sum + f.length ≤ byteLimit then
          (.result (.ok ()), { q' with frames := q'.frames ++ [f] })
        else (.result (.error (if q'.state = .opened then .full else .closed)), q') := by
  obtain ⟨r', hrun, h⟩ := (FrameRing.tryNew_represents hwide hnew).run ops
  have hconserved := FrameQueue.run_frames (.tryNew limit byteLimit) ops
  obtain ⟨hlimit, hbyteLimit⟩ := FrameQueue.run_limits (.tryNew limit byteLimit) ops
  generalize FrameQueue.run (.tryNew limit byteLimit) ops = result at hrun h hconserved hlimit hbyteLimit ⊢
  obtain ⟨replies, q'⟩ := result
  have hslots : r'.frames.length = limit := h.slots.trans (h.limit.trans hlimit)
  refine ⟨replies, r', q', rfl, hrun, h.state, h.length, h.bytes, ?_, fun i f hf => ?_, fun j hj => ?_, hconserved,
    h.drop, fun f => ?_⟩
  · rw [← show r'.byteLimit = byteLimit from h.byteLimit.trans hbyteLimit]
    exact h.budget
  · have hi := Nat.lt_of_lt_of_le (List.getElem?_eq_some_iff.mp hf).1 h.laid.fits
    rw [← hslots, h.laid.slot i hi, hf]
  · rw [← hslots] at hj ⊢
    rw [h.length]
    exact h.laid.occupied_iff hj
  · rw [q'.apply_enqueue f, show q'.limit = limit from hlimit, show q'.byteLimit = byteLimit from hbyteLimit]

/-- Three frames go through a ring of two slots, the last of them past its end. -/
def wrappedFrames : List QueueOp := [.enqueue ⟨0, 40⟩, .enqueue ⟨1, 50⟩, .dequeue, .enqueue ⟨2, 50⟩, .close]

theorem frame_ring_refines_fifo_wrapped :
    ∃ r, FrameRing.tryNew 2 100 true = .ok r ∧ ∃ replies r' q',
      FrameQueue.run (.tryNew 2 100) wrappedFrames = (replies, q') ∧ r.run wrappedFrames = .ok (replies, r') ∧
      removedFrames replies = [⟨0, 40⟩, ⟨1, 50⟩, ⟨2, 50⟩] ∧
      acceptedFrames wrappedFrames replies = removedFrames replies ++ q'.frames := by
  have hnew : FrameRing.tryNew 2 100 true = .ok ⟨[none, none], 0, 0, 2, 100, 0, .opened⟩ := rfl
  obtain ⟨replies, r', q', hfifo, hring, -, -, -, -, -, -, hconserved, -⟩ :=
    frame_ring_refines_fifo (by decide) hnew wrappedFrames
  refine ⟨_, hnew, replies, r', q', hfifo, hring, ?_, hconserved⟩
  cases hfifo
  rfl

end WinTap
