import WinTap.Driver.ReadDelivery
import WinTap.Proof.Driver.TransmitRing

/-!
# Direct delivery agrees with the queued path

The validation of a packet goes through its fragments by the same checks as the copies do. So once it has passed, no
copy is refused, and the copies into the frame and into the output buffer write the same bytes one after the other.
-/

namespace WinTap

variable {sizes : ElementSizes} {extension : NetExtension} {maximum : Nat} {s : TxRings}

/-- An element is found at the index it is looked for, whatever the size of the ring. -/
theorem NetRing.elementAt_slot {r : NetRing} {index slot : RingIndex} {size : Nat}
    (h : r.elementAt index size = some slot) : slot = index := by
  unfold NetRing.elementAt at h
  split at h
  · cases h
  rename_i hcheck
  simp only [Bool.or_eq_true, not_or, Bool.not_eq_true] at hcheck
  have hinside : index &&& ~~~r.elementIndexMask = 0 := by simpa [NetRing.outside] using hcheck.2
  have hmask : index &&& r.elementIndexMask = index := Ring.and_mask_eq_self.mpr hinside
  dsimp only at h
  split at h <;> cases h
  exact hmask

/-- What the copies of a packet write, once its fragments have passed the validation from a total on. -/
structure CopiesOf (sizes : ElementSizes) (extension : NetExtension) (s : TxRings) (count : Nat) (index : RingIndex)
    (offset : Nat) (bytes : List UInt8) : Prop where
  output : ∀ output : List UInt8, offset + bytes.length ≤ output.length →
    ReadDelivery.copyFragments sizes extension s count index output offset
      = .ok (Splice.splice output offset bytes, some (offset + bytes.length))
  frame : ∀ data : List UInt8, data.length = frameMaximum → offset + bytes.length ≤ frameMaximum →
    copyToFrame sizes extension s count index data offset
      = .ok (some (Splice.splice data offset bytes, offset + bytes.length))

theorem validateFragment_le {fragment : NetFragment} {buffer : Option (List UInt8)} {total total' : Nat}
    (h : validateFragment maximum fragment buffer total = some total') : total' ≤ maximum := by
  unfold validateFragment at h
  split at h
  · cases h
  split at h
  · rename_i hchecks
    cases h
    omega
  · cases h

theorem validateFragments_copies (hfits : s.BuffersFit) {count : Nat} {index : RingIndex} {total total' : Nat}
    (htotal : total ≤ maximum)
    (h : validateFragments sizes extension maximum s count index total = some total') :
    ∃ bytes : List UInt8, total' = total + bytes.length ∧ total' ≤ maximum ∧
      CopiesOf sizes extension s count index total bytes := by
  induction count generalizing index total with
  | zero =>
    cases h
    refine ⟨[], rfl, htotal, fun output _ => ?_, fun data _ _ => ?_⟩
    · rw [ReadDelivery.copyFragments, Splice.splice_nil]
      rfl
    · rw [copyToFrame, Splice.splice_nil]
      rfl
  | succ count ih =>
    simp only [validateFragments, Option.bind_eq_bind, Option.bind_eq_some_iff] at h
    obtain ⟨fragment, hfragment, address, haddress, subtotal, hvalidate, next, hnext, hrest⟩ := h
    obtain rfl := NetRing.elementAt_slot hfragment
    obtain rfl := extension.fragmentVirtualAddress_eq haddress
    have hsubtotal := validateFragment_le hvalidate
    obtain ⟨hsome, hoffset, hlength, rfl⟩ := validateFragment_eq_some hvalidate
    obtain ⟨hdata, hrange⟩ := TxRings.InBounds.fragmentData hfits ⟨hsome, hoffset, hlength⟩
    obtain ⟨bytes, rfl, hmaximum, hcopies⟩ := ih hsubtotal hrest
    rw [← hrange] at hcopies hmaximum ⊢
    refine ⟨s.validRange address ++ bytes, by rw [List.length_append, Nat.add_assoc], hmaximum, ?_, ?_⟩
    · intro output hroom
      rw [List.length_append, ← Nat.add_assoc] at hroom ⊢
      have hwrite : writeBuffer output total (s.validRange address)
          = .ok (Splice.splice output total (s.validRange address)) := if_pos (by omega)
      have hafter := hcopies.output (Splice.splice output total (s.validRange address))
        (by rw [Splice.length_splice (by omega)]; exact hroom)
      rw [Splice.splice_splice (by omega)] at hafter
      simp only [ReadDelivery.copyFragments, hfragment, haddress, hdata, hwrite, hnext, bind, Except.bind]
      exact hafter
    · intro data hsize hroom
      rw [List.length_append, ← Nat.add_assoc] at hroom ⊢
      have hwrite : copyFromSlice data total (s.validRange address)
          = .ok (some (Splice.splice data total (s.validRange address))) := by
        rw [copyFromSlice, if_neg (by omega), writeBuffer, if_pos (by omega)]
        rfl
      have hafter := hcopies.frame (Splice.splice data total (s.validRange address))
        (by rw [Splice.length_splice (by omega)]; exact hsize) hroom
      rw [Splice.splice_splice (by omega)] at hafter
      simp only [copyToFrame, hfragment, haddress, hdata, hwrite, hnext, bind, Except.bind]
      exact hafter

/-! ### The coarser model -/

/-- The instance as a whole completes a READ by the lengths alone, with the status that the bytes give. -/
theorem completeCapturedFrameToRead_status (d : Device) (r : Read) (f : Frame) {output frame : List UInt8}
    {retrieve : Nat → NtStatus} (houtput : output.length = r.outputLength) (hframe : frame.length = f.length)
    (hretrieve : retrieve frame.length = statusSuccess) :
    (ReadDelivery.completeCapturedFrameToRead retrieve ⟨output, none⟩ frame).map Prod.snd
      = .ok (completeCapturedFrameToRead d r f none).2 := by
  simp only [ReadDelivery.completeCapturedFrameToRead, completeCapturedFrameToRead, houtput, hframe]
  rw [hframe] at hretrieve
  rw [if_neg (not_not.mpr hretrieve)]
  split
  · rfl
  · rename_i hroom
    rw [writeBuffer, if_pos (by omega)]
    rfl

/-! ### Agreement -/

/-- `WdfRequestRetrieveOutputBuffer` fails exactly for a buffer that is shorter than the minimum. -/
def RetrievesByLength (retrieve : Nat → NtStatus) (output : List UInt8) : Prop :=
  ∀ minimum, retrieve minimum = if output.length < minimum then statusBufferTooSmall else statusSuccess

open ReadDelivery in
/-- For a packet that has passed the validation, filling a frame succeeds, and both ways complete the READ with the
same status, bytes and Information and leave the same counters, whatever the framework answers for the output buffer.
When it fails by length, a buffer that is too small is left alone, the READ is completed with that error, and the frame
is kept; and otherwise the READ gets the bytes of the frame. -/
theorem direct_delivery_agrees (hfits : s.BuffersFit) (hmaximum : maximum ≤ frameMaximum) {count : Nat}
    {fragmentBegin : RingIndex} {total : Nat}
    (hvalid : validateFragments sizes extension maximum s count fragmentBegin 0 = some total)
    (storage : Vector UInt8 frameMaximum) (retrieve : Nat → NtStatus) (output : List UInt8) (account : Account) :
    ∃ data delivery, copyToFrame sizes extension s count fragmentBegin storage.toList 0 = .ok (some (data, total)) ∧
      (data.take total).length = total ∧
      ReadDelivery.deliverTransmitPacketToRead sizes extension s retrieve ⟨output, none⟩ account fragmentBegin count
        total = .ok delivery ∧
      deliverCapturedFrame retrieve ⟨output, none⟩ account (data.take total) = .ok delivery ∧
      delivery.account = ⟨releaseRequest account.pendingReads, account.legacyDirectReadClaims⟩ ∧
      (RetrievesByLength retrieve output →
        (output.length < total → delivery.request = ⟨output, some (statusBufferTooSmall, 0)⟩ ∧ delivery.kept = true) ∧
        (total ≤ output.length →
          delivery.request = ⟨Splice.splice output 0 (data.take total), some (statusSuccess, total)⟩ ∧
            delivery.kept = false)) := by
  obtain ⟨bytes, htotal, hle, hcopies⟩ := validateFragments_copies hfits (Nat.zero_le _) hvalid
  rw [Nat.zero_add] at htotal
  subst htotal
  have hframe := hcopies.frame storage.toList storage.length_toList (by omega)
  have hdata : (Splice.splice storage.toList 0 bytes).take bytes.length = bytes := Splice.take_splice_zero _ _
  rw [Nat.zero_add] at hframe
  refine ⟨Splice.splice storage.toList 0 bytes, ?_⟩
  rw [hdata]
  let released : Account := ⟨releaseRequest account.pendingReads, account.legacyDirectReadClaims⟩
  by_cases hretrieve : retrieve bytes.length ≠ statusSuccess
  · have hqueued : ReadDelivery.completeCapturedFrameToRead retrieve ⟨output, none⟩ bytes
        = .ok (⟨output, none⟩, retrieve bytes.length) := if_pos hretrieve
    refine ⟨⟨⟨output, some (retrieve bytes.length, 0)⟩, released, true⟩, hframe, rfl, ?_, ?_, rfl, fun hlength => ?_⟩
    · exact if_pos hretrieve
    · rw [deliverCapturedFrame, hqueued]
      exact if_pos hretrieve
    · rw [hlength] at hretrieve ⊢
      refine ⟨fun hshort => ⟨by rw [if_pos hshort], rfl⟩, fun hroom => ?_⟩
      rw [if_neg (Nat.not_lt.mpr hroom)] at hretrieve
      exact absurd rfl hretrieve
  by_cases hshort : output.length < bytes.length
  · have hqueued : ReadDelivery.completeCapturedFrameToRead retrieve ⟨output, none⟩ bytes
        = .ok (⟨output, none⟩, statusBufferTooSmall) := (if_neg hretrieve).trans (if_pos hshort)
    refine ⟨⟨⟨output, some (statusBufferTooSmall, 0)⟩, released, true⟩, hframe, rfl, ?_, ?_, rfl, fun _ => ?_⟩
    · exact (if_neg hretrieve).trans (if_pos hshort)
    · rw [deliverCapturedFrame, hqueued]
      rfl
    · exact ⟨fun _ => ⟨rfl, rfl⟩, fun hroom => absurd hshort (Nat.not_lt.mpr hroom)⟩
  · have hdirect := hcopies.output output (by omega)
    rw [Nat.zero_add] at hdirect
    have hwrite : writeBuffer output 0 bytes = .ok (Splice.splice output 0 bytes) := if_pos (by omega)
    have hqueued : ReadDelivery.completeCapturedFrameToRead retrieve ⟨output, none⟩ bytes
        = .ok (⟨Splice.splice output 0 bytes, some (statusSuccess, bytes.length)⟩, statusSuccess) := by
      refine (if_neg hretrieve).trans ((if_neg hshort).trans ?_)
      rw [hwrite]
      rfl
    refine ⟨⟨⟨Splice.splice output 0 bytes, some (statusSuccess, bytes.length)⟩, released, false⟩, hframe, rfl, ?_, ?_,
      rfl, fun _ => ?_⟩
    · refine (if_neg hretrieve).trans ((if_neg hshort).trans ?_)
      rw [hdirect]
      rfl
    · rw [deliverCapturedFrame, hqueued]
      rfl
    · exact ⟨fun hlt => absurd hlt hshort, fun _ => ⟨rfl, rfl⟩⟩

/-- A packet in two fragments, and a READ with room for it. -/
theorem direct_delivery_agrees_small :
    validateFragments ⟨40, 8⟩ ⟨true, true, 8⟩ 1514 smallTxRings 2 3 0 = some 16 ∧
      ∃ (data : List UInt8) (delivery : ReadDelivery.Delivery),
        ReadDelivery.deliverTransmitPacketToRead ⟨40, 8⟩ ⟨true, true, 8⟩ smallTxRings (fun _ => statusSuccess)
          ⟨List.replicate 20 9, none⟩ ⟨1, 0⟩ 3 2 16 = .ok delivery ∧
        ReadDelivery.deliverCapturedFrame (fun _ => statusSuccess) ⟨List.replicate 20 9, none⟩ ⟨1, 0⟩
          (data.take 16) = .ok delivery ∧ delivery.account = ⟨0, 0⟩ := by
  have hfits : smallTxRings.BuffersFit := by
    intro i buffer hi
    cases hi
    exact Nat.le_of_eq (List.length_replicate).symm
  have hvalid : validateFragments ⟨40, 8⟩ ⟨true, true, 8⟩ 1514 smallTxRings 2 3 0 = some 16 := by decide
  obtain ⟨data, delivery, -, -, hdirect, hqueued, haccount, -⟩ := direct_delivery_agrees hfits (by decide) hvalid
    (Vector.replicate frameMaximum 0) (fun _ => statusSuccess) (List.replicate 20 9) ⟨1, 0⟩
  exact ⟨hvalid, data, delivery, hdirect, hqueued, haccount⟩

end WinTap
