import WinTap.Driver.TransmitRing

/-!
# Completing a READ with a frame

The second way in which a READ that waits in the manual queue gets a frame, with the bytes that are written into its
output buffer. Direct delivery copies the fragments of the packet into the buffer; the worker copies a frame that was
captured before. Both have retrieved the READ from the manual queue. What `WdfRequestRetrieveOutputBuffer` answers for
a minimum length is given from outside.
-/

namespace WinTap.ReadDelivery

/-- `complete_captured_frame_to_read`. -/
def completeCapturedFrameToRead (retrieve : Nat → NtStatus) (r : Request) (frame : List UInt8) :
    Except Fault (Request × NtStatus) := do
  if retrieve frame.length ≠ statusSuccess then return (r, retrieve frame.length)
  if r.output.length < frame.length then return (r, statusBufferTooSmall)
  let output ← writeBuffer r.output 0 frame
  return (completeRequestWithInformation { r with output := output } statusSuccess frame.length, statusSuccess)

/-- The worker with a READ and a frame from the capture queue. -/
def deliverCapturedFrame (retrieve : Nat → NtStatus) (r : Request) (account : Account) (frame : List UInt8) :
    Except Fault Delivery := do
  let account := { account with pendingReads := releaseRequest account.pendingReads }
  let (r, status) ← completeCapturedFrameToRead retrieve r frame
  if status ≠ statusSuccess then return ⟨completeRequest r status, account, true⟩
  return ⟨r, account, false⟩

end WinTap.ReadDelivery
