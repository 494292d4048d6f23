import WinTap.Wait.Protocol

/-!
# The queued work item

Only its start takes the work item off the queue. A claim queues it, and no routine of the wait protocol
does anything else to it.
-/

namespace WinTap

/-- A queued work item stays queued. -/
def StaysQueued (c c' : Core) : Prop := c.workQueued = true → c'.workQueued = true

theorem StaysQueued.of_eq {c c' : Core} (h : c'.workQueued = c.workQueued) : StaysQueued c c' :=
  fun hc => h.trans hc

section
variable (c : Core) (e : Env) (t : ThreadId) (r : Request) (choice : Choice)

theorem transitionWaitRecord_workQueued (source target : BitVec 8) (pc : TransitionPc) :
    (transitionWaitRecord c source target pc).1.workQueued = c.workQueued := by
  cases pc <;> simp only [transitionWaitRecord] <;> split <;> rfl

theorem beginWaitRecord_workQueued (pc : TransitionPc) :
    (beginWaitRecord c pc).1.workQueued = c.workQueued := by
  cases pc <;> simp only [beginWaitRecord] <;> split <;> rfl

theorem finishWait_workQueued (pc : FinishPc) : (finishWait c pc).1.workQueued = c.workQueued := by
  cases pc <;> rfl

theorem unmarkAndCompleteWait_workQueued (status : NtStatus) (satisfied : Mask) (pc : UnmarkPc) :
    (unmarkAndCompleteWait c r status satisfied choice pc).1.workQueued = c.workQueued := by
  cases pc with
  | unmark =>
    simp only [unmarkAndCompleteWait, unmarkCancelable]
    split
    · split
      · rfl
      · split <;> rfl
    all_goals rfl
  | handoff => rfl
  | finish pc completion => exact finishWait_workQueued c pc
  | complete completion =>
    cases completion with
    | status status => rfl
    | response =>
      simp only [unmarkAndCompleteWait, completeWaitResponse]
      split
      · rfl
      · split <;> rfl

theorem claimWaitForPassiveCompletion_queued (condition : Mask) (expected : Option Request)
    (pc : ClaimPc) : StaysQueued c (claimWaitForPassiveCompletion e c t condition expected pc).1 := by
  cases pc with
  | enqueue => exact fun _ => rfl
  | exchange observed satisfied =>
    simp only [claimWaitForPassiveCompletion]
    split <;> exact id
  | _ => exact id

theorem handleWaitForChange_queued (input : WaitInput) (pc : RegisterPc) :
    StaysQueued c (handleWaitForChange e c t r input choice pc).1 := by
  cases pc with
  | «begin» pc => exact .of_eq (beginWaitRecord_workQueued c pc)
  | publish =>
    simp only [handleWaitForChange]
    split <;> exact id
  | mark =>
    simp only [handleWaitForChange, markCancelableEx]
    split
    · exact id
    · split <;> exact id
  | toPending pc | toUnmarking pc => exact .of_eq (transitionWaitRecord_workQueued c _ _ pc)
  | claim condition pc => exact claimWaitForPassiveCompletion_queued c e t condition (some r) pc
  | unmark pc => exact .of_eq (unmarkAndCompleteWait_workQueued c r choice _ _ pc)
  | finish pc status => exact .of_eq (finishWait_workQueued c pc)
  | _ => exact id

theorem cancelWaitFromWdf_queued (pc : CancelPc) : StaysQueued c (cancelWaitFromWdf c r pc).1 := by
  cases pc with
  | transition source pc => exact .of_eq (transitionWaitRecord_workQueued c _ _ pc)
  | finish pc => exact .of_eq (finishWait_workQueued c pc)
  | _ => exact id

theorem cancelWaitRequestForTeardown_queued (expected : Option Request) (pc : TeardownPc) :
    StaysQueued c (cancelWaitRequestForTeardown c expected choice pc).1 := by
  cases pc with
  | transition observed pc => exact .of_eq (transitionWaitRecord_workQueued c _ _ pc)
  | finish pc => exact .of_eq (finishWait_workQueued c pc)
  | unmark r pc => exact .of_eq (unmarkAndCompleteWait_workQueued c r choice _ _ pc)
  | _ => exact id

theorem workerRound_queued (pc : WorkerPc) : StaysQueued c (workerRound e c choice pc).1 := by
  cases pc with
  | take pc => exact .of_eq (transitionWaitRecord_workQueued c _ _ pc)
  | finish pc => exact .of_eq (finishWait_workQueued c pc)
  | snapshot r claimed interest pc =>
    simp only [workerRound]
    split <;> exact id
  | unmark r status satisfied pc => exact .of_eq (unmarkAndCompleteWait_workQueued c r choice _ _ pc)
  | _ => exact id

end

end WinTap
