import WinTap.Proof.Driver.Quiesced

/-!
# Who has the control device

`evt_file_create` claims the flag `control_open` and `evt_file_cleanup` gives it up, each with one atomic operation,
while other opens and closes are on their way. The flag belongs to one claim at a time: to an open that has taken it,
then to the handle that the open returned, then to the cleanup of that handle until it releases the flag. Every open
that finds the flag taken is refused.
-/

namespace WinTap

/-- The cleanup has not released the control device yet. -/
def CleanupPc.claims : CleanupPc → Bool
  | .reopen _ | .resume | .readmitResumed _ | .startReads | .unlockWrite _ | .unlockDirect _
  | .readmitCallbacks _ => false
  | _ => true

/-- The callback is an open that has taken the control device, or a cleanup that has not given it up. -/
def Thread.claims : Thread → Bool
  | .create _ (.complete status) => status = statusSuccess
  | .cleanup _ pc => pc.claims
  | _ => false

theorem Thread.claims_complete (h : Handle) {status : NtStatus} :
    (Thread.create h (.complete status)).claims = true ↔ status = statusSuccess :=
  decide_eq_true_iff

/-- The handle that a callback opens or closes. -/
def Thread.subject : Thread → Option Handle
  | .create h _ | .cleanup h _ => some h
  | _ => none

/-- What the control device can belong to. -/
inductive Claim where
  | handle (h : Handle)
  | thread (t : ThreadId)
  deriving DecidableEq, Repr

def Driver.Claims (s : Driver) : Claim → Prop
  | .handle h => s.dev.handles h = .opened
  | .thread t => (s.thr t).claims = true

/-- The control device belongs to one claim, or to none and its flag is clear. A handle that is being opened or closed
is in the hands of one callback. -/
structure ControlOwned (s : Driver) : Prop where
  owner : ∃ owner : Option Claim, (∀ c, s.Claims c ↔ owner = some c) ∧ s.dev.controlOpen = owner.isSome
  phase : ∀ t h, (s.thr t).subject = some h → s.dev.handles h ≠ .absent ∧ s.dev.handles h ≠ .opened
  unique : ∀ t u h, (s.thr t).subject = some h → (s.thr u).subject = some h → t = u

namespace ControlOwned

variable {s s' : Driver} {t : ThreadId} {d : Device} {th : Thread} {h : Handle}

theorem keep (hinv : ControlOwned s) (hclaims : th.claims = (s.thr t).claims)
    (hsubject : th.subject = (s.thr t).subject) (hhandles : d.handles = s.dev.handles)
    (hopen : d.controlOpen = s.dev.controlOpen) : ControlOwned (s.setThread t d th) := by
  have hkeep : ∀ c, (s.setThread t d th).Claims c ↔ s.Claims c := by
    intro c
    cases c with
    | handle h => rw [Driver.Claims, Driver.setThread_dev, hhandles, Driver.Claims]
    | thread i => rw [Driver.Claims, s.setThread_keep t d th (f := Thread.claims) hclaims i, Driver.Claims]
  obtain ⟨⟨owner, howner, hflag⟩, hphase, hunique⟩ := hinv
  refine ⟨⟨owner, fun c => (hkeep c).trans (howner c), ?_⟩, ?_, ?_⟩
  · rw [Driver.setThread_dev, hopen]
    exact hflag
  · intro i h hi
    rw [s.setThread_keep t d th (f := Thread.subject) hsubject i] at hi
    rw [Driver.setThread_dev, hhandles]
    exact hphase i h hi
  · intro i j h hi hj
    rw [s.setThread_keep t d th (f := Thread.subject) hsubject] at hi hj
    exact hunique i j h hi hj

/-- The phase of the handle that a callback works on changes, and with it who has the control device. -/
theorem change (hinv : ControlOwned s) (phase : HandlePhase) (owner : Option Claim)
    (hhandles : d.handles = Function.update s.dev.handles h phase)
    (hmine : ∀ i, i ≠ t → (s.thr i).subject ≠ some h)
    (hsubject : th.subject = none ∨ th.subject = some h ∧ phase ≠ .absent ∧ phase ≠ .opened)
    (hothers : ∀ c, c ≠ .handle h → c ≠ .thread t → (s.Claims c ↔ owner = some c))
    (hhandle : phase = .opened ↔ owner = some (.handle h)) (hthread : th.claims = true ↔ owner = some (.thread t))
    (hopen : d.controlOpen = owner.isSome) : ControlOwned (s.setThread t d th) := by
  refine ⟨⟨owner, fun c => ?_, hopen⟩, ?_, ?_⟩
  · cases c with
    | handle x =>
      rw [Driver.Claims, Driver.setThread_dev, hhandles]
      by_cases hx : x = h
      · rw [hx, Function.update_self, hhandle]
      · rw [Function.update_of_ne hx]
        exact hothers (.handle x) (fun heq => hx (Claim.handle.inj heq)) nofun
    | thread i =>
      rw [Driver.Claims]
      by_cases hi : i = t
      · rw [hi, Driver.setThread_self, hthread]
      · rw [Driver.setThread_of_ne _ _ _ _ hi]
        exact hothers (.thread i) nofun fun heq => hi (Claim.thread.inj heq)
  · intro i x hi
    rw [Driver.setThread_dev, hhandles]
    by_cases hit : i = t
    · rw [hit, Driver.setThread_self] at hi
      obtain hnone | ⟨hsome, hphase⟩ := hsubject
      · rw [hnone] at hi
        cases hi
      · rw [hsome] at hi
        cases hi
        rw [Function.update_self]
        exact hphase
    · rw [Driver.setThread_of_ne _ _ _ _ hit] at hi
      have hx : x ≠ h := fun heq => hmine i hit (heq ▸ hi)
      rw [Function.update_of_ne hx]
      exact hinv.phase i x hi
  · have hcollide : ∀ {i x}, i ≠ t → (s.thr i).subject = some x → th.subject = some x → False := by
      intro i x hi hsub hth
      obtain hnone | ⟨hsome, -⟩ := hsubject
      · rw [hnone] at hth
        cases hth
      · rw [hsome] at hth
        cases hth
        exact hmine i hi hsub
    intro i j x hi hj
    by_cases hit : i = t <;> by_cases hjt : j = t
    · rw [hit, hjt]
    · rw [hit, Driver.setThread_self] at hi
      rw [Driver.setThread_of_ne _ _ _ _ hjt] at hj
      exact (hcollide hjt hj hi).elim
    · rw [hjt, Driver.setThread_self] at hj
      rw [Driver.setThread_of_ne _ _ _ _ hit] at hi
      exact (hcollide hit hi hj).elim
    · rw [Driver.setThread_of_ne _ _ _ _ hit] at hi
      rw [Driver.setThread_of_ne _ _ _ _ hjt] at hj
      exact hinv.unique i j x hi hj

theorem alone (hinv : ControlOwned s) (hsubject : (s.thr t).subject = some h) (i : ThreadId) (hi : i ≠ t) :
    (s.thr i).subject ≠ some h :=
  fun hsame => hi (hinv.unique i t h hsame hsubject)

theorem not_handle (hinv : ControlOwned s) (hsubject : (s.thr t).subject = some h) {owner : Option Claim}
    (howner : ∀ c, s.Claims c ↔ owner = some c) : owner ≠ some (.handle h) :=
  fun hc => (hinv.phase t h hsubject).2 ((howner (.handle h)).mpr hc)

theorem rephase (hinv : ControlOwned s) (phase : HandlePhase) (hsubject : (s.thr t).subject = some h)
    (hhandles : d.handles = Function.update s.dev.handles h phase) (hphase : phase ≠ .absent ∧ phase ≠ .opened)
    (hnext : th.subject = none ∨ th.subject = some h) (hclaims : th.claims = (s.thr t).claims)
    (hopen : d.controlOpen = s.dev.controlOpen) : ControlOwned (s.setThread t d th) := by
  obtain ⟨owner, howner, hflag⟩ := hinv.owner
  refine hinv.change phase owner hhandles (hinv.alone hsubject) (hnext.imp_right fun h => ⟨h, hphase⟩)
    (fun c _ _ => howner c) ?_ ?_ (hopen.trans hflag)
  · exact iff_of_false hphase.2 (hinv.not_handle hsubject howner)
  · rw [hclaims]
    exact howner (.thread t)

theorem claim (hinv : ControlOwned s) (hthr : s.thr t = .create h .claim) (hfree : s.dev.controlOpen = false)
    (hhandles : d.handles = s.dev.handles) (hopen : d.controlOpen = true) :
    ControlOwned (s.setThread t d (.create h (.complete statusSuccess))) := by
  have hsubject : (s.thr t).subject = some h := by
    rw [hthr]
    rfl
  obtain ⟨owner, howner, hflag⟩ := hinv.owner
  have hnone : owner = none := by
    rw [hfree] at hflag
    exact Option.not_isSome_iff_eq_none.mp fun hsome => by rw [hsome] at hflag; cases hflag
  refine hinv.change (s.dev.handles h) (some (.thread t)) ?_ (hinv.alone hsubject)
    (.inr ⟨rfl, hinv.phase t h hsubject⟩) (fun c _ hc => ?_) ?_ ?_ hopen
  · rw [hhandles, Function.update_eq_self]
  · rw [howner c, hnone]
    exact iff_of_false nofun fun heq => hc (Option.some.inj heq).symm
  · exact iff_of_false (hinv.phase t h hsubject).2 nofun
  · exact iff_of_true ((Thread.claims_complete h).mpr rfl) rfl

theorem opened (hinv : ControlOwned s) (hthr : s.thr t = .create h (.complete statusSuccess))
    (hhandles : d.handles = Function.update s.dev.handles h .opened) (hopen : d.controlOpen = s.dev.controlOpen) :
    ControlOwned (s.setThread t d .idle) := by
  have hsubject : (s.thr t).subject = some h := by
    rw [hthr]
    rfl
  obtain ⟨owner, howner, hflag⟩ := hinv.owner
  have hmine : owner = some (.thread t) := by
    refine (howner (.thread t)).mp ?_
    rw [Driver.Claims, hthr]
    exact (Thread.claims_complete h).mpr rfl
  refine hinv.change .opened (some (.handle h)) hhandles (hinv.alone hsubject) (.inl rfl) (fun c hc ht => ?_) ?_ ?_ ?_
  · rw [howner c, hmine]
    exact iff_of_false (fun heq => ht (Option.some.inj heq).symm) fun heq => hc (Option.some.inj heq).symm
  · exact iff_of_true rfl rfl
  · exact iff_of_false Bool.false_ne_true nofun
  · rw [hopen, hflag, hmine]
    rfl

theorem closing (hinv : ControlOwned s) (hopened : s.dev.handles h = .opened)
    (hhandles : d.handles = Function.update s.dev.handles h .cleaning) (hopen : d.controlOpen = s.dev.controlOpen) :
    ControlOwned (s.setThread t d (.cleanup h .retire)) := by
  obtain ⟨owner, howner, hflag⟩ := hinv.owner
  have hmine : owner = some (.handle h) := (howner (.handle h)).mp hopened
  refine hinv.change .cleaning (some (.thread t)) hhandles (fun i _ hi => ?_) (.inr ⟨rfl, by decide⟩)
    (fun c hc ht => ?_) ?_ ?_ ?_
  · exact (hinv.phase i h hi).2 hopened
  · rw [howner c, hmine]
    exact iff_of_false (fun heq => hc (Option.some.inj heq).symm) fun heq => ht (Option.some.inj heq).symm
  · exact iff_of_false nofun nofun
  · exact iff_of_true rfl rfl
  · rw [hopen, hflag, hmine]
    rfl

theorem released (hinv : ControlOwned s) {pc : CleanupPc} (hthr : s.thr t = .cleanup h pc) (hpc : pc.claims = true)
    {pc' : CleanupPc} (hpc' : pc'.claims = false) (hhandles : d.handles = s.dev.handles)
    (hopen : d.controlOpen = false) : ControlOwned (s.setThread t d (.cleanup h pc')) := by
  have hsubject : (s.thr t).subject = some h := by
    rw [hthr]
    rfl
  obtain ⟨owner, howner, hflag⟩ := hinv.owner
  have hmine : owner = some (.thread t) := by
    refine (howner (.thread t)).mp ?_
    rw [Driver.Claims, hthr]
    exact hpc
  refine hinv.change (s.dev.handles h) none ?_ (hinv.alone hsubject)
    (.inr ⟨rfl, hinv.phase t h hsubject⟩) (fun c _ ht => ?_) ?_ ?_ hopen
  · rw [hhandles, Function.update_eq_self]
  · rw [howner c, hmine]
    exact iff_of_false (fun heq => ht (Option.some.inj heq).symm) nofun
  · exact iff_of_false (hinv.phase t h hsubject).2 nofun
  · exact iff_of_false (by rw [Thread.claims, hpc']; exact Bool.false_ne_true) nofun

theorem create (hinv : ControlOwned s) {pc : CreatePc} (hthr : s.thr t = .create h pc) {next : Device × Thread}
    (hnext : next = (Thread.create h pc).settle (.create h) (evtFileCreate s.dev h pc)) :
    ControlOwned (s.setThread t next.1 next.2) := by
  have hsubject : (s.thr t).subject = some h := by
    rw [hthr]
    rfl
  subst hnext
  cases pc with
  | claim =>
    cases hfree : s.dev.controlOpen with
    | true =>
      simp only [evtFileCreate, hfree, if_true]
      refine hinv.keep ?_ (by rw [hthr]; rfl) rfl rfl
      rw [hthr]
      exact Bool.eq_false_iff.mpr fun hbusy => absurd ((Thread.claims_complete h).mp hbusy) (by decide)
    | false =>
      simp only [evtFileCreate, hfree, Bool.false_eq_true, if_false]
      exact hinv.claim hthr hfree rfl rfl
  | complete status =>
    by_cases hstatus : status = statusSuccess
    · subst hstatus
      refine hinv.opened hthr ?_ rfl
      simp only [evtFileCreate, if_true]
      rfl
    · refine hinv.rephase .refused hsubject ?_ (by decide) (.inl rfl) ?_ rfl
      · simp only [evtFileCreate, if_neg hstatus]
        rfl
      · rw [hthr]
        exact (decide_eq_false hstatus).symm

theorem cleanup (hinv : ControlOwned s) {pc : CleanupPc} {choice : Choice} (hthr : s.thr t = .cleanup h pc)
    {flow : Flow CleanupPc Unit} (hstep : CleanupStep s.dev t h choice pc d flow) :
    ControlOwned (s.setThread t ((Thread.cleanup h pc).settle (.cleanup h) (d, flow)).1
      ((Thread.cleanup h pc).settle (.cleanup h) (d, flow)).2) := by
  have hsubject : (s.thr t).subject = some h := by
    rw [hthr]
    rfl
  cases hstep with
  | releaseControl | releaseControlClosed => exact hinv.released hthr rfl rfl rfl rfl
  | drainCapture =>
    exact hinv.rephase .drained hsubject rfl (by decide) (.inr rfl) (by rw [hthr]; rfl) rfl
  | unlockDirect | readmitCaptureLast =>
    exact hinv.rephase .closed hsubject rfl (by decide) (.inl rfl) (by rw [hthr]; rfl) rfl
  | _ => exact hinv.keep (by rw [hthr]; rfl) (by rw [hthr]; rfl) rfl rfl

theorem step {a : Action} (hinv : ControlOwned s) (hstep : stepDriver s a = some s') : ControlOwned s' := by
  have hother : ∀ {th : Thread}, th.kind ∉ [.create, .cleanup] → th.claims = false ∧ th.subject = none := by
    intro th hk
    cases th <;> first | exact ⟨rfl, rfl⟩ | simp [Thread.kind] at hk
  cases stepDriver_cases hstep with
  | @start t a d th hidle hstart =>
    cases hstart
    case create h habsent =>
      obtain ⟨owner, howner, hflag⟩ := hinv.owner
      refine hinv.change .opening owner rfl (fun i _ hi => (hinv.phase i h hi).1 habsent)
        (.inr ⟨rfl, by decide⟩) (fun c _ _ => howner c) ?_ ?_ hflag
      · refine iff_of_false (by decide) fun heq => ?_
        have hopened : s.dev.handles h = .opened := (howner (.handle h)).mpr heq
        rw [habsent] at hopened
        cases hopened
      · refine iff_of_false Bool.false_ne_true fun heq => ?_
        have hclaims : (s.thr t).claims = true := (howner (.thread t)).mpr heq
        rw [hidle] at hclaims
        cases hclaims
    case cleanup h hopened => exact hinv.closing hopened rfl rfl
    all_goals exact hinv.keep (by rw [hidle]; rfl) (by rw [hidle]; rfl) rfl rfl
  | @framework a d hmove =>
    rw [s.setDev_eq 0]
    cases hmove <;> exact hinv.keep rfl rfl rfl rfl
  | @packet t length passive gen captured hthr hlength =>
    exact hinv.keep (by rw [hthr]; rfl) (by rw [hthr]; rfl) rfl rfl
  | @advance t choice next hadvance =>
    by_cases hkind : (s.thr t).kind ∈ [.create, .cleanup]
    · cases hthr : s.thr t <;> rw [hthr] at hkind hadvance <;> simp [Thread.kind] at hkind
      case create h pc =>
        cases hadvance
        exact hinv.create hthr rfl
      case cleanup h pc =>
        obtain ⟨⟨d, flow⟩, hcleanup, rfl⟩ := Option.map_eq_some_iff.mp hadvance
        exact hinv.cleanup hthr (evtFileCleanup_cases hcleanup)
    · have hnext := stepThread_kind_not_mem hadvance (by decide) hkind
      have hframes := stepThread_frames hadvance
      refine hinv.keep ?_ ?_ (hframes.handles hkind) (hframes.controlOpen hkind)
      · rw [(hother hnext).1, (hother hkind).1]
      · rw [(hother hnext).2, (hother hkind).2]

theorem initial (hidle : ∀ t, s.thr t = .idle) (hhandles : ∀ h, s.dev.handles h = .absent)
    (hopen : s.dev.controlOpen = false) : ControlOwned s := by
  refine ⟨⟨none, fun c => iff_of_false (fun hclaims => ?_) nofun, hopen⟩, fun t h ht => ?_, fun t u h ht => ?_⟩
  · cases c with
    | handle h => cases (hhandles h).symm.trans hclaims
    | thread t =>
      rw [Driver.Claims, hidle t] at hclaims
      cases hclaims
  all_goals
    rw [hidle t] at ht
    cases ht

end ControlOwned

theorem InstanceReach.controlOwned {ok : Instance → InstanceAction → Prop} {s : Instance} (h : InstanceReach ok s) :
    ControlOwned s.driver := by
  refine InstanceReach.driver_invariant (fun mtu _ _ => ?_) (fun _ _ _ => ControlOwned.step)
    (fun s choice pc d flow hinv hstep => ?_) (fun s t choice pc d flow hinv hstep => ?_) h
  · exact .initial (fun _ => rfl) (fun _ => rfl) rfl
  · rw [s.setDev_eq 0]
    cases hstep <;> exact hinv.keep rfl rfl rfl rfl
  · rw [s.setDev_eq 0]
    cases hstep <;> exact hinv.keep rfl rfl rfl rfl

theorem DriverReach.controlOwned {ok : Driver → Action → Prop} {s : Driver} (h : DriverReach ok s) :
    ControlOwned s := by
  refine h.invariant (fun s hinit => ?_) fun _ _ _ _ hinv _ hstep => hinv.step hstep
  obtain ⟨⟨mtu, -, -, hdev⟩, hidle⟩ := hinit
  exact .initial hidle (fun h => by rw [hdev]; rfl) (by rw [hdev]; rfl)

/-- However opens and closes interleave, `control_open` is set exactly while something has the control device, and then
that is one open, one open handle or one cleanup: no two handles are ever open together, and the flag is never left set
when its handle is gone. -/
theorem control_device_has_one_owner {s : Instance} (h : InstanceReach Machine.Free s) :
    (s.driver.dev.controlOpen = true ↔ ∃ c, s.driver.Claims c) ∧
      ∀ c c', s.driver.Claims c → s.driver.Claims c' → c = c' := by
  obtain ⟨owner, howner, hflag⟩ := h.controlOwned.owner
  constructor
  · rw [hflag, Option.isSome_iff_exists]
    exact exists_congr fun c => (howner c).symm
  · intro c c' hc hc'
    have hsome := ((howner c).mp hc).symm.trans ((howner c').mp hc')
    exact Option.some.inj hsome

/-- A second open comes while the first handle is being closed. -/
def openedWhileClosing : List InstanceAction :=
  broughtUp ++ (.create 1 7 :: steps 1 2 ++ .cleanup 1 7 :: steps 1 3 ++ .create 2 8 :: steps 2 2).map .driver

/-- The cleanup still has the control device, and the second open was refused. -/
theorem control_device_has_one_owner_closing :
    let s := (instanceSystem.after (.added defaultMtu) openedWhileClosing).driver
    s.Claims (.thread 1) ∧ s.dev.handles 8 = .refused ∧ s.dev.controlOpen = true ∧
      ∀ c, s.Claims c → c = .thread 1 := by
  intro s
  have hreach : InstanceReach Machine.Free (instanceSystem.after (.added defaultMtu) openedWhileClosing) :=
    Machine.System.reach_after (instanceReach_added _) _
  have hclaims : s.Claims (.thread 1) := show (s.thr 1).claims = true by decide +kernel
  have hrefused : s.dev.handles 8 = .refused := by decide +kernel
  obtain ⟨hflag, hunique⟩ := control_device_has_one_owner hreach
  exact ⟨hclaims, hrefused, hflag.mpr ⟨_, hclaims⟩, fun c hc => hunique c _ hc hclaims⟩

end WinTap
