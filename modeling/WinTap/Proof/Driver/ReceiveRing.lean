import WinTap.Driver.ReceiveRing
import WinTap.Proof.Driver.NetRings

/-!
# RX indication stays inside the driver's range

One round of `inject_receive_frames` indicates the packet and the fragment at the two `BeginIndex` values and moves
both by one, or ends the callback with nothing indicated. Rounds compose: what is behind the indices is not touched
again while they stay short of `EndIndex`. The loop ends because every round it goes on after leaves the driver one
packet less.
-/

namespace WinTap

/-- A buffer is at least as long as the capacity its fragment states. -/
def RxRings.BuffersFit (s : RxRings) : Prop :=
  ∀ i buffer, s.buffers i = some buffer → (s.fragments i).capacity ≤ buffer.length

/-- The packet that indicates the frame in one fragment. -/
def indicatedPacket (fragmentIndex : RingIndex) : NetPacket where
  fragmentIndex := fragmentIndex
  fragmentCount := 1
  ignore := false
  layout := { layer2Type := layer2TypeEthernet, layer2HeaderLength := frameMinimum, rest := 0 }

/-- The fragment at an index holds the frame. -/
structure RxRings.Holds (s : RxRings) (i : RingIndex) (capacity : Nat) (frame : List UInt8) : Prop where
  fragment : s.fragments i = { offset := 0, capacity := capacity, validLength := frame.length }
  fits : frame.length ≤ capacity
  bytes : ∃ buffer, s.buffers i = some buffer ∧ buffer.take frame.length = frame

/-- The first `k` packets of the driver are indicated with the given frames, and the indices are past them. Nothing
else is changed, but the offset of the fragment after them may be reset. -/
structure Indicated (frames : Nat → Option (List UInt8)) (s s' : RxRings) (k : Nat) : Prop where
  packetRing : s'.packetRing = s.packetRing.moved k
  fragmentRing : s'.fragmentRing = s.fragmentRing.moved k
  ownedPackets : k ≤ s.packetRing.owned
  ownedFragments : k ≤ s.fragmentRing.owned
  indicated : ∀ j < k, ∃ frame, frames j = some frame ∧
    s'.packets (s.packetRing.position j) = indicatedPacket (s.fragmentRing.position j) ∧
    s'.Holds (s.fragmentRing.position j) (s.fragments (s.fragmentRing.position j)).capacity frame
  packets : ∀ i, (∀ j < k, i ≠ s.packetRing.position j) → s'.packets i = s.packets i
  buffers : ∀ i, (∀ j < k, i ≠ s.fragmentRing.position j) → s'.buffers i = s.buffers i
  fragments : ∀ i, (∀ j < k, i ≠ s.fragmentRing.position j) → s'.fragments i = s.fragments i ∨
    i = s.fragmentRing.position k ∧ s'.fragments i = { s.fragments i with offset := 0 }

variable {frames : Nat → Option (List UInt8)} {s s₁ s' : RxRings}

theorem Indicated.none (hpacket : s.packetRing.InRange) (hfragment : s.fragmentRing.InRange) :
    Indicated frames s s 0 where
  packetRing := hpacket.moved_zero.symm
  fragmentRing := hfragment.moved_zero.symm
  ownedPackets := Nat.zero_le _
  ownedFragments := Nat.zero_le _
  indicated := nofun
  packets _ _ := rfl
  buffers _ _ := rfl
  fragments _ _ := .inl rfl

theorem Indicated.cons {k : Nat} (hpacket : s.packetRing.InRange) (hfragment : s.fragmentRing.InRange)
    (hfirst : Indicated frames s s₁ 1) (hexact : ∀ i, i ≠ s.fragmentRing.beginIndex → s₁.fragments i = s.fragments i)
    (hpackets : s.packetRing.beginIndex ≠ s.packetRing.endIndex)
    (hfragments : s.fragmentRing.beginIndex ≠ s.fragmentRing.endIndex)
    (hrest : Indicated (fun i => frames (i + 1)) s₁ s' k) : Indicated frames s s' (k + 1) := by
  have hpacketPosition : ∀ j, s₁.packetRing.position j = s.packetRing.position (j + 1) := fun j => by
    rw [hfirst.packetRing, hpacket.position_moved, Nat.add_comm]
  have hfragmentPosition : ∀ j, s₁.fragmentRing.position j = s.fragmentRing.position (j + 1) := fun j => by
    rw [hfirst.fragmentRing, hfragment.position_moved, Nat.add_comm]
  have hownedPackets : k + 1 ≤ s.packetRing.owned := by
    have hle := hrest.ownedPackets
    have hless := hpacket.owned_moved_one hpackets
    rw [hfirst.packetRing] at hle
    omega
  have hownedFragments : k + 1 ≤ s.fragmentRing.owned := by
    have hle := hrest.ownedFragments
    have hless := hfragment.owned_moved_one hfragments
    rw [hfirst.fragmentRing] at hle
    omega
  -- the elements that the later rounds indicate are not the first
  have hpacketNe : ∀ j < k, s.packetRing.position 0 ≠ s.packetRing.position (j + 1) := by
    intro j hj heq
    have hlt := hpacket.owned_lt
    cases hpacket.position_injective (by omega) (by omega) heq
  have hfragmentNe : ∀ j < k, s.fragmentRing.position 0 ≠ s.fragmentRing.position (j + 1) := by
    intro j hj heq
    have hlt := hfragment.owned_lt
    cases hfragment.position_injective (by omega) (by omega) heq
  have hexact' : ∀ i, i ≠ s.fragmentRing.position 0 → s₁.fragments i = s.fragments i := by
    rwa [hfragment.position_zero]
  refine ⟨?_, ?_, hownedPackets, hownedFragments, fun j hj => ?_, fun i hi => ?_, fun i hi => ?_, fun i hi => ?_⟩
  · rw [hrest.packetRing, hfirst.packetRing, hpacket.moved_moved, Nat.add_comm]
  · rw [hrest.fragmentRing, hfirst.fragmentRing, hfragment.moved_moved, Nat.add_comm]
  · cases j with
    | zero =>
      obtain ⟨frame, hframe, hindicated, hholds⟩ := hfirst.indicated 0 (by decide)
      have hkept : ∀ j < k, s.fragmentRing.position 0 ≠ s₁.fragmentRing.position j := fun j hj => by
        rw [hfragmentPosition]
        exact hfragmentNe j hj
      refine ⟨frame, hframe, ?_, ?_, hholds.fits, ?_⟩
      · rw [hrest.packets _ fun j hj => by rw [hpacketPosition]; exact hpacketNe j hj]
        exact hindicated
      · obtain hsame | ⟨-, hreset⟩ := hrest.fragments _ hkept
        · rw [hsame, hholds.fragment]
        · rw [hreset, hholds.fragment]
      · rw [hrest.buffers _ hkept]
        exact hholds.bytes
    | succ j =>
      obtain ⟨frame, hframe, hindicated, hholds⟩ := hrest.indicated j (by omega)
      rw [hpacketPosition, hfragmentPosition] at hindicated
      rw [hfragmentPosition, hexact' _ (Ne.symm (hfragmentNe j (by omega)))] at hholds
      exact ⟨frame, hframe, hindicated, hholds⟩
  · rw [hrest.packets i fun j hj => by rw [hpacketPosition]; exact hi (j + 1) (by omega)]
    exact hfirst.packets i fun j hj => hi j (by omega)
  · rw [hrest.buffers i fun j hj => by rw [hfragmentPosition]; exact hi (j + 1) (by omega)]
    exact hfirst.buffers i fun j hj => hi j (by omega)
  · have hsame := hexact' i (hi 0 (by omega))
    rw [← hsame, ← hfragmentPosition]
    exact hrest.fragments i fun j hj => by rw [hfragmentPosition]; exact hi (j + 1) (by omega)

/-- A round that ends at a fragment that is too small for its frame. -/
theorem Indicated.reset (hpacket : s.packetRing.InRange) (hfragment : s.fragmentRing.InRange) :
    Indicated frames s { s with
      fragments := Function.update s.fragments s.fragmentRing.beginIndex
        { s.fragments s.fragmentRing.beginIndex with offset := 0 } } 0 where
  packetRing := hpacket.moved_zero.symm
  fragmentRing := hfragment.moved_zero.symm
  ownedPackets := Nat.zero_le _
  ownedFragments := Nat.zero_le _
  indicated := nofun
  packets _ _ := rfl
  buffers _ _ := rfl
  fragments i _ := by
    rw [hfragment.position_zero]
    by_cases hi : i = s.fragmentRing.beginIndex
    · subst hi
      exact .inr ⟨rfl, Function.update_self ..⟩
    · exact .inl (Function.update_of_ne hi ..)

/-- The rings after a frame was copied into the first fragment and its packet indicated. -/
def RxRings.indicate (s : RxRings) (frame buffer : List UInt8) : RxRings where
  packetRing := s.packetRing.moved 1
  fragmentRing := s.fragmentRing.moved 1
  packets := Function.update s.packets s.packetRing.beginIndex (indicatedPacket s.fragmentRing.beginIndex)
  fragments := Function.update s.fragments s.fragmentRing.beginIndex
    { offset := 0, capacity := (s.fragments s.fragmentRing.beginIndex).capacity, validLength := frame.length }
  buffers := Function.update s.buffers s.fragmentRing.beginIndex (some (Splice.splice buffer 0 frame))

theorem Indicated.one {frame buffer : List UInt8} (hpacket : s.packetRing.InRange) (hfragment : s.fragmentRing.InRange)
    (hpackets : s.packetRing.beginIndex ≠ s.packetRing.endIndex)
    (hfragments : s.fragmentRing.beginIndex ≠ s.fragmentRing.endIndex) (hframe : frames 0 = some frame)
    (hlength : frame.length ≤ (s.fragments s.fragmentRing.beginIndex).capacity) :
    Indicated frames s (s.indicate frame buffer) 1 := by
  have hother : ∀ {r : NetRing} {i : RingIndex}, r.InRange → (∀ j < 1, i ≠ r.position j) → i ≠ r.beginIndex := by
    intro r i hr hi
    rw [← hr.position_zero]
    exact hi 0 (by decide)
  refine ⟨rfl, rfl, ?_, ?_, fun j hj => ?_, fun i hi => ?_, fun i hi => ?_, fun i hi => ?_⟩
  · exact Nat.pos_of_ne_zero fun hzero => hpackets (hpacket.owned_eq_zero.mp hzero)
  · exact Nat.pos_of_ne_zero fun hzero => hfragments (hfragment.owned_eq_zero.mp hzero)
  · obtain rfl : j = 0 := by omega
    rw [hpacket.position_zero, hfragment.position_zero]
    exact ⟨frame, hframe, Function.update_self .., Function.update_self .., hlength,
      Splice.splice buffer 0 frame, Function.update_self .., Splice.take_splice_zero buffer frame⟩
  · exact Function.update_of_ne (hother hpacket hi) ..
  · exact Function.update_of_ne (hother hfragment hi) ..
  · exact .inl (Function.update_of_ne (hother hfragment hi) ..)

theorem RxRings.BuffersFit.indicate (h : s.BuffersFit) {frame buffer : List UInt8}
    (hbuffer : s.buffers s.fragmentRing.beginIndex = some buffer)
    (hlength : frame.length ≤ (s.fragments s.fragmentRing.beginIndex).capacity) :
    (s.indicate frame buffer).BuffersFit := by
  intro i buffer' hi
  have hfits := h _ _ hbuffer
  by_cases hfirst : i = s.fragmentRing.beginIndex
  · subst hfirst
    simp only [RxRings.indicate, Function.update_self, Option.some.injEq] at hi ⊢
    rw [← hi, Splice.length_splice (by omega)]
    exact hfits
  · simp only [RxRings.indicate, Function.update_of_ne hfirst] at hi ⊢
    exact h i buffer' hi

/-- What a round does. -/
inductive RoundOutcome (frames : Nat → Option (List UInt8)) (s : RxRings) : RxRound → Prop
  | done {s' : RxRings} {putBack : Option (List UInt8)} (hnone : Indicated frames s s' 0) :
    RoundOutcome frames s (.done s' putBack)
  | again {s' : RxRings} (hone : Indicated frames s s' 1)
      (hexact : ∀ i, i ≠ s.fragmentRing.beginIndex → s'.fragments i = s.fragments i)
      (hpackets : s.packetRing.beginIndex ≠ s.packetRing.endIndex)
      (hfragments : s.fragmentRing.beginIndex ≠ s.fragmentRing.endIndex) (hfit : s'.BuffersFit) :
    RoundOutcome frames s (.again s')

theorem indicateFrame_outcome (sizes : ElementSizes) (extension : NetExtension)
    (frames : Nat → Option (List UInt8)) (hpacket : s.packetRing.InRange) (hfragment : s.fragmentRing.InRange)
    (hfit : s.BuffersFit) :
    ∃ round, indicateFrame sizes extension s (frames 0) = .ok round ∧ RoundOutcome frames s round := by
  have hnone : Indicated frames s s 0 := .none hpacket hfragment
  unfold indicateFrame
  dsimp only
  split
  · exact ⟨_, rfl, .done hnone⟩
  rename_i howned
  rw [not_or] at howned
  split
  swap
  · exact ⟨_, rfl, .done hnone⟩
  rename_i frame hframe
  split
  swap
  · exact ⟨_, rfl, .done hnone⟩
  rename_i packet hpacketAt
  obtain ⟨rfl, hpacketValid⟩ := hpacket.elementAt_eq hpacketAt
  split
  swap
  · exact ⟨_, rfl, .done hnone⟩
  rename_i fragment hfragmentAt
  obtain ⟨rfl, hfragmentValid⟩ := hfragment.elementAt_eq hfragmentAt
  split
  swap
  · exact ⟨_, rfl, .done hnone⟩
  rename_i address haddress
  obtain rfl := extension.fragmentVirtualAddress_eq haddress
  split
  swap
  · exact ⟨_, rfl, .done hnone⟩
  rename_i buffer hbuffer
  simp only [Function.update_self, Function.update_idem]
  split
  · exact ⟨_, rfl, .done (.reset hpacket hfragment)⟩
  rename_i hcapacity
  have hlength : frame.length ≤ (s.fragments s.fragmentRing.beginIndex).capacity := Nat.le_of_not_lt hcapacity
  have hwrite : writeBuffer buffer 0 frame = .ok (Splice.splice buffer 0 frame) := by
    refine if_pos ?_
    rw [Nat.zero_add]
    exact Nat.le_trans hlength (hfit _ _ hbuffer)
  rw [hwrite]
  have hnextPacket := hpacket.incrementIndex_position hpacketValid 0
  have hnextFragment := hfragment.incrementIndex_position hfragmentValid 0
  rw [hpacket.position_zero] at hnextPacket
  rw [hfragment.position_zero] at hnextFragment
  simp only [bind, Except.bind, hnextPacket, hnextFragment]
  exact ⟨.again (s.indicate frame buffer), rfl, .again (.one hpacket hfragment howned.1 howned.2 hframe hlength)
    (fun i hi => Function.update_of_ne hi ..) howned.1 howned.2 (hfit.indicate hbuffer hlength)⟩

theorem indicateLoop_indicated (sizes : ElementSizes) (extension : NetExtension)
    (frames : Nat → Option (List UInt8)) (hpacket : s.packetRing.InRange) (hfragment : s.fragmentRing.InRange)
    (hfit : s.BuffersFit) {rounds : Nat} (hrounds : s.packetRing.owned < rounds) :
    ∃ s' putBack k, indicateLoop sizes extension rounds frames s = .ok (s', putBack) ∧ Indicated frames s s' k := by
  induction rounds generalizing s frames with
  | zero => cases hrounds
  | succ rounds ih =>
    obtain ⟨round, hround, houtcome⟩ := indicateFrame_outcome sizes extension frames hpacket hfragment hfit
    rw [indicateLoop, hround]
    cases houtcome with
    | done hnone => exact ⟨_, _, 0, rfl, hnone⟩
    | @again s₁ hone hexact hpackets hfragments hfit₁ =>
      have hless := hpacket.owned_moved_one hpackets
      have hpacket₁ : s₁.packetRing.InRange := hone.packetRing ▸ hpacket.moved 1
      have hfragment₁ : s₁.fragmentRing.InRange := hone.fragmentRing ▸ hfragment.moved 1
      obtain ⟨s', putBack, k, hloop, hrest⟩ := ih (fun i => frames (i + 1)) hpacket₁ hfragment₁ hfit₁
        (by rw [hone.packetRing]; omega)
      exact ⟨s', putBack, k + 1, hloop, hone.cons hpacket hfragment hexact hpackets hfragments hrest⟩

/-- For rings of the shape that NetAdapterCx gives them, and whatever the injection queue answers from round to round,
`inject_receive_frames` ends, and has indicated some number of packets from `BeginIndex` on, each with a frame in the
fragment that goes with it. -/
theorem rx_indication_stays_owned (sizes : ElementSizes) (extension : NetExtension) (lifecycle : Lifecycle)
    (frames : Nat → Option (List UInt8)) (hpacket : s.packetRing.InRange) (hfragment : s.fragmentRing.InRange)
    (hfit : s.BuffersFit) {rounds : Nat} (hrounds : s.packetRing.owned < rounds) :
    ∃ s' putBack k, injectReceiveFrames sizes extension lifecycle rounds frames s = .ok (s', putBack) ∧
      Indicated frames s s' k := by
  unfold injectReceiveFrames
  split
  · exact ⟨s, none, 0, rfl, .none hpacket hfragment⟩
  · exact indicateLoop_indicated sizes extension frames hpacket hfragment hfit hrounds

/-- Two rings of four elements, with the last and the first packet and three fragments for the driver. -/
def smallRxRings : RxRings where
  packetRing := ⟨64, 4, 3, 3, 1⟩
  fragmentRing := ⟨16, 4, 3, 0, 3⟩
  packets _ := ⟨0, 0, true, ⟨0, 0, 0⟩⟩
  fragments _ := ⟨5, 20, 0⟩
  buffers _ := some (List.replicate 20 0)

/-- A frame is indicated in the last packet, and the next one is too long. -/
theorem rx_indication_stays_owned_small :
    ((injectReceiveFrames ⟨40, 8⟩ ⟨true, true, 8⟩ .instanceOpen 3
        (fun i => some (List.replicate (14 + 7 * i) 1)) smallRxRings).toOption.map
      fun (s', putBack) => (s'.packetRing.beginIndex, s'.fragmentRing.beginIndex, putBack.map List.length))
        = some (0, 1, some 21) ∧
    ∃ s' putBack k, injectReceiveFrames ⟨40, 8⟩ ⟨true, true, 8⟩ .instanceOpen 3
        (fun i => some (List.replicate (14 + 7 * i) 1)) smallRxRings = .ok (s', putBack) ∧
      Indicated (fun i => some (List.replicate (14 + 7 * i) 1)) smallRxRings s' k := by
  refine ⟨by decide, rx_indication_stays_owned _ _ _ _ ⟨⟨2, rfl⟩, by decide, by decide⟩
    ⟨⟨2, rfl⟩, by decide, by decide⟩ (fun i buffer hi => ?_) (by decide)⟩
  cases hi
  exact Nat.le_refl 20

end WinTap
