import WinTap.Base.Tally
import WinTap.Driver.Admission

/-!
# Leases are counted exactly and admission closes at once

One step of the lease protocol changes one field of one word: a grant and a drop change the count by one,
a quiesce scope sets its own closer, and a readmission clears it. The count never reaches its maximum,
because a full word refuses, so the two fields do not run into each other. A word that a scope has closed
grants nothing, and its count only goes down until that scope readmits.
-/

namespace WinTap

variable {w w' : LeaseWords} {spurious : Bool} {th th' : LeaseThread} {s s' : LeaseWorld} {a : LeaseAction}
  {t : ThreadId} {side : Side} {c : Closer}

/-! ### What a step does -/

/-- The lease a thread holds in a direction. -/
def LeaseThread.live (side : Side) (th : LeaseThread) : Nat := if th = .hold side then 1 else 0

theorem LeaseThread.live_hold (side : Side) : (LeaseThread.hold side).live side = 1 := if_pos rfl

/-- An exchange is attempted only for a word that was observed open. -/
def LeaseThread.observedOpen : LeaseThread → Prop
  | .acquire _ (.exchange observed) => observeLeases observed = .run (.exchange observed)
  | _ => True

/-- What a step of a thread does to the two words. -/
inductive LeaseMove (w : LeaseWords) : LeaseThread → LeaseWords → LeaseThread → Prop
  /-- An acquisition that reads its word, or fails to exchange it. -/
  | observe {side : Side} {pc : AcquirePc} {th : LeaseThread} (hth : ∀ side', th ≠ .hold side')
      (hopen : th.observedOpen) : LeaseMove w (.acquire side pc) w th
  | grant {side : Side} {pc : AcquirePc} {word : Word} (h : acquireLease (w.word side) = some word) :
    LeaseMove w (.acquire side pc) (w.set side word) (.hold side)
  | drop {side : Side} : LeaseMove w (.hold side) (w.set side (dropLease (w.word side))) .idle
  | shutReceive {c : Closer} :
    LeaseMove w (.quiesce c .shutReceive) (w.set .receive (shutLeases w.receive c)) (.quiesce c .shutCapture)
  | shutCapture {c : Closer} :
    LeaseMove w (.quiesce c .shutCapture) (w.set .capture (shutLeases w.capture c)) (.quiesce c .drainReceive)
  | drainReceive {c : Closer} (h : leaseCount w.receive = 0) :
    LeaseMove w (.quiesce c .drainReceive) w (.quiesce c .drainCapture)
  | drainCapture {c : Closer} (h : leaseCount w.capture = 0) :
    LeaseMove w (.quiesce c .drainCapture) w .idle
  | resumeReceive {c : Closer} :
    LeaseMove w (.resume c .receive) (w.set .receive (resumeLeases w.receive c)) (.resume c .capture)
  | resumeCapture {c : Closer} :
    LeaseMove w (.resume c .capture) (w.set .capture (resumeLeases w.capture c)) .idle

/-- Where the acquisition of a lease goes on. -/
def LeaseThread.acquiring (side : Side) : Flow AcquirePc Bool → LeaseThread
  | .run pc => .acquire side pc
  | .ret true => .hold side
  | .ret false => .idle

theorem stepLeaseThread_cases (hopen : th.observedOpen) (h : stepLeaseThread w spurious th = some (w', th')) :
    LeaseMove w th w' th' := by
  cases th with
  | idle => cases h
  | acquire side pc =>
    -- what the acquisition does with a word it has just read
    have hobserve : ∀ {th' : LeaseThread}, LeaseThread.acquiring side (observeLeases (w.word side)) = th' →
        LeaseMove w (.acquire side pc) w th' := by
      rintro th' rfl
      obtain hread | hread := observeLeases_eq (w.word side) <;> rw [hread]
      · exact .observe (fun _ => LeaseThread.noConfusion) trivial
      · exact .observe (fun _ => LeaseThread.noConfusion) hread
    cases pc with
    | load =>
      obtain ⟨hw, hth⟩ := Prod.mk.inj (Option.some.inj h)
      have hw : w.set side (w.word side) = w' := hw
      rw [LeaseWords.set_word] at hw
      exact hw ▸ hobserve hth
    | exchange observed =>
      have hgranted : acquireLoop (w.word side) spurious (.exchange observed)
            = (observed + 1#64, .ret true) → acquireLease (w.word side) = some (observed + 1#64) :=
        acquireLoop_granted fun o ho => by cases ho; exact hopen
      simp only [stepLeaseThread, acquireLoop] at h hgranted
      split at h
      · rename_i hsame
        rw [if_pos hsame] at hgranted
        cases h
        exact .grant (hgranted rfl)
      · obtain ⟨hw, hth⟩ := Prod.mk.inj (Option.some.inj h)
        have hw : w.set side (w.word side) = w' := hw
        rw [LeaseWords.set_word] at hw
        exact hw ▸ hobserve hth
  | hold side =>
    cases h
    exact .drop
  | quiesce c pc =>
    obtain ⟨result, hresult, heq⟩ := Option.map_eq_some_iff.mp h
    cases pc <;> simp only [quiesceLeases] at hresult
    case shutReceive =>
      cases hresult
      cases heq
      exact .shutReceive
    case shutCapture =>
      cases hresult
      cases heq
      exact .shutCapture
    case drainReceive =>
      split at hresult <;> cases hresult
      cases heq
      exact .drainReceive ‹_›
    case drainCapture =>
      split at hresult <;> cases hresult
      cases heq
      exact .drainCapture ‹_›
  | resume c pc =>
    cases pc with
    | receive =>
      cases h
      exact .resumeReceive
    | capture =>
      cases h
      exact .resumeCapture

theorem LeaseMove.observedOpen (h : LeaseMove w th w' th') : th'.observedOpen := by
  cases h with
  | observe _ hopen => exact hopen
  | _ => trivial

/-- The count of a word moves with the leases of the thread, as long as a held one is counted. -/
theorem LeaseMove.count (h : LeaseMove w th w' th') (side : Side) (hcounted : th.live side ≤ leaseCount (w.word side)) :
    leaseCount (w'.word side) + th.live side = leaseCount (w.word side) + th'.live side := by
  -- one word changes, and the others keep their count
  have hset : ∀ {side' : Side} {word : Word} {held held' : Nat},
      (side = side' → leaseCount word + held = leaseCount (w.word side) + held') →
      (side ≠ side' → held = held') →
      leaseCount ((w.set side' word).word side) + held = leaseCount (w.word side) + held' := by
    intro side' word held held' hself hother
    by_cases hside : side = side'
    · subst hside
      rw [LeaseWords.word_set_self]
      exact hself rfl
    · rw [LeaseWords.word_set_of_ne _ _ _ _ hside, hother hside]
  cases h with
  | observe hth _ => simp [LeaseThread.live, hth]
  | @grant side' pc word hgrant =>
    refine hset ?_ ?_
    · rintro rfl
      simp [LeaseThread.live, (acquireLease_eq hgrant).1]
    · intro hne
      simp [LeaseThread.live, hne.symm]
  | @drop side' =>
    refine hset ?_ ?_
    · rintro rfl
      rw [LeaseThread.live_hold] at hcounted
      simp [LeaseThread.live, (dropLease_eq hcounted).1]
    · intro hne
      simp [LeaseThread.live, hne.symm]
  | shutReceive | shutCapture =>
    refine hset ?_ fun _ => rfl
    rintro rfl
    simp only [(shutLeases_eq _ _).1]
    rfl
  | drainReceive | drainCapture => rfl
  | resumeReceive | resumeCapture =>
    refine hset ?_ fun _ => rfl
    rintro rfl
    simp only [(resumeLeases_eq _ _).1]
    rfl

theorem LeaseMove.closer (h : LeaseMove w th w' th') (side : Side) (c : Closer)
    (hcounted : th.live side ≤ leaseCount (w.word side)) (hquiesce : ∀ pc, th ≠ .quiesce c pc)
    (hresume : ∀ pc, th ≠ .resume c pc) : closedBy (w'.word side) c ↔ closedBy (w.word side) c := by
  have hset : ∀ {side' : Side} {word : Word},
      (side = side' → (closedBy word c ↔ closedBy (w.word side) c)) →
      (closedBy ((w.set side' word).word side) c ↔ closedBy (w.word side) c) := by
    intro side' word hself
    by_cases hside : side = side'
    · subst hside
      rw [LeaseWords.word_set_self]
      exact hself rfl
    · rw [LeaseWords.word_set_of_ne _ _ _ _ hside]
  cases h with
  | observe | drainReceive | drainCapture => exact Iff.rfl
  | grant hgrant =>
    refine hset ?_
    rintro rfl
    exact (acquireLease_eq hgrant).2.1 c
  | drop =>
    refine hset ?_
    rintro rfl
    rw [LeaseThread.live_hold] at hcounted
    exact (dropLease_eq hcounted).2 c
  | @shutReceive c' | @shutCapture c' =>
    refine hset ?_
    rintro rfl
    have hne : c ≠ c' := by
      rintro rfl
      exact hquiesce _ rfl
    exact ((shutLeases_eq _ c').2 c).trans (or_iff_left hne)
  | @resumeReceive c' | @resumeCapture c' =>
    refine hset ?_
    rintro rfl
    have hne : c ≠ c' := by
      rintro rfl
      exact hresume _ rfl
    exact ((resumeLeases_eq _ c').2 c).trans (and_iff_left hne)

/-! ### Runs -/

theorem stepLease_cases (h : stepLease s a = some s') :
    (∃ t th, s.thr t = .idle ∧ (∀ side, th ≠ .hold side) ∧ th.observedOpen ∧ s' = s.set t s.words th) ∨
      ∃ t spurious w th, a = .advance t spurious ∧
        stepLeaseThread s.words spurious (s.thr t) = some (w, th) ∧ s' = s.set t w th := by
  cases a with
  | acquire t side | quiesce t c | resume t c =>
    simp only [stepLease] at h
    split at h <;> cases h
    refine .inl ⟨t, _, ‹_›, ?_, ?_, rfl⟩
    · exact fun _ => LeaseThread.noConfusion
    · trivial
  | advance t spurious =>
    obtain ⟨⟨w, th⟩, hstep, rfl⟩ := Option.map_eq_some_iff.mp h
    exact .inr ⟨t, spurious, w, th, rfl, hstep, rfl⟩

/-- Every word counts the live leases of its direction. -/
structure LeaseInv (s : LeaseWorld) : Prop where
  opened : ∀ t, (s.thr t).observedOpen
  count : ∀ side, Tally (fun t => (s.thr t).live side) (leaseCount (s.words.word side))

namespace LeaseInv

theorem init (h : leaseSystem.init s) : LeaseInv s := by
  obtain ⟨hwords, hidle⟩ := h
  refine ⟨fun t => ?_, fun side => ?_⟩
  · rw [hidle t]
    trivial
  · have hzero : leaseCount (s.words.word side) = 0 := by
      rw [hwords]
      cases side <;> decide
    rw [hzero]
    refine Tally.zero fun t => ?_
    rw [hidle t]
    rfl

theorem set (h : LeaseInv s) (hopen : th.observedOpen)
    (hcount : ∀ side, leaseCount (w.word side) + (s.thr t).live side = leaseCount (s.words.word side) + th.live side) :
    LeaseInv (s.set t w th) where
  opened i := by
    by_cases hi : i = t
    · subst hi
      simpa only [LeaseWorld.set, Function.update_self] using hopen
    · simpa only [LeaseWorld.set, Function.update_of_ne hi] using h.opened i
  count side := (h.count side).step t th (hcount side)

theorem step (h : LeaseInv s) (hstep : stepLease s a = some s') : LeaseInv s' := by
  obtain ⟨t, th, hidle, hhold, hopen, rfl⟩ | ⟨t, spurious, w, th, -, hthread, rfl⟩ := stepLease_cases hstep
  · refine h.set hopen fun side => ?_
    rw [hidle]
    simp [LeaseThread.live, hhold]
  · have hmove := stepLeaseThread_cases (h.opened t) hthread
    exact h.set hmove.observedOpen fun side => hmove.count side ((h.count side).le t)

end LeaseInv

theorem LeaseReach.inv (h : LeaseReach s) : LeaseInv s :=
  h.invariant (fun _ => LeaseInv.init) fun _ _ _ _ hinv _ hstep => hinv.step hstep

def LeaseThread.resumes (c : Closer) : LeaseThread → Bool
  | .resume c' _ => c' = c
  | _ => false

/-- The step is not one of the two stores of `resume_datapath_callbacks` for the scope. -/
def NoResume (c : Closer) (s : LeaseWorld) : LeaseAction → Prop
  | .advance t _ => (s.thr t).resumes c = false
  | _ => True

instance (c : Closer) (s : LeaseWorld) : (a : LeaseAction) → Decidable (NoResume c s a)
  | .advance t _ => inferInstanceAs (Decidable ((s.thr t).resumes c = false))
  | .acquire .. | .quiesce .. | .resume .. => inferInstanceAs (Decidable True)

/-- Both words are closed by the scope and have no live lease. -/
def Drained (c : Closer) (w : LeaseWords) : Prop :=
  ∀ side, closedBy (w.word side) c ∧ leaseCount (w.word side) = 0

/-- How far the closing of a scope has come, in the thread that closes it: the words it has shut are
closed, and the directions it has drained have no live lease. -/
def Closing (c : Closer) (w : LeaseWords) (th : LeaseThread) : Prop :=
  th = .quiesce c .shutReceive ∨
  th = .quiesce c .shutCapture ∧ closedBy w.receive c ∨
  th = .quiesce c .drainReceive ∧ closedBy w.receive c ∧ closedBy w.capture c ∨
  th = .quiesce c .drainCapture ∧ closedBy w.receive c ∧ closedBy w.capture c ∧ leaseCount w.receive = 0 ∨
  Drained c w

/-- A word that a scope has closed stays closed and grants nothing until that scope readmits. -/
theorem LeaseMove.stays_closed (h : LeaseMove w th w' th') (hcounted : th.live side ≤ leaseCount (w.word side))
    (hresume : ∀ pc, th ≠ .resume c pc) (hclosed : closedBy (w.word side) c) :
    closedBy (w'.word side) c ∧ leaseCount (w'.word side) ≤ leaseCount (w.word side) := by
  have hcount := h.count side hcounted
  refine ⟨?_, ?_⟩
  · by_cases hquiesce : ∃ pc, th = .quiesce c pc
    · obtain ⟨pc, rfl⟩ := hquiesce
      cases h
      case shutReceive =>
        cases side
        · exact ((shutLeases_eq _ c).2 c).mpr (.inr rfl)
        · exact hclosed
      case shutCapture =>
        cases side
        · exact hclosed
        · exact ((shutLeases_eq _ c).2 c).mpr (.inr rfl)
      all_goals exact hclosed
    · exact (h.closer side c hcounted (fun pc hpc => hquiesce ⟨pc, hpc⟩) hresume).mpr hclosed
  · -- only a grant makes the count larger, and a closed word grants nothing
    have hlive : th'.live side ≤ th.live side := by
      cases h with
      | observe hth _ => simp [LeaseThread.live, hth]
      | @grant side' pc word hgrant =>
        have hne : side' ≠ side := by
          rintro rfl
          exact (acquireLease_eq hgrant).2.2 c hclosed
        simp [LeaseThread.live, hne]
      | _ => simp [LeaseThread.live]
    omega

theorem Drained.keep (h : Drained c w)
    (hstays : ∀ side, closedBy (w.word side) c →
      closedBy (w'.word side) c ∧ leaseCount (w'.word side) ≤ leaseCount (w.word side)) : Drained c w' := by
  intro side
  obtain ⟨hclosed, hle⟩ := hstays side (h side).1
  exact ⟨hclosed, Nat.le_zero.mp ((h side).2 ▸ hle)⟩

theorem Closing.keep (h : Closing c w th)
    (hstays : ∀ side, closedBy (w.word side) c →
      closedBy (w'.word side) c ∧ leaseCount (w'.word side) ≤ leaseCount (w.word side)) : Closing c w' th := by
  have hreceive := hstays .receive
  have hcapture := hstays .capture
  obtain h | ⟨h, hr⟩ | ⟨h, hr, hc⟩ | ⟨h, hr, hc, hzero⟩ | hdrained := h
  · exact .inl h
  · exact .inr (.inl ⟨h, (hreceive hr).1⟩)
  · exact .inr (.inr (.inl ⟨h, (hreceive hr).1, (hcapture hc).1⟩))
  · refine .inr (.inr (.inr (.inl ⟨h, (hreceive hr).1, (hcapture hc).1, ?_⟩)))
    exact Nat.le_zero.mp (hzero ▸ (hreceive hr).2)
  · exact .inr (.inr (.inr (.inr (hdrained.keep hstays))))

theorem Closing.advance (h : Closing c w th) (hmove : LeaseMove w th w' th')
    (hstays : ∀ side, closedBy (w.word side) c →
      closedBy (w'.word side) c ∧ leaseCount (w'.word side) ≤ leaseCount (w.word side)) : Closing c w' th' := by
  obtain rfl | ⟨rfl, hr⟩ | ⟨rfl, hr, hc⟩ | ⟨rfl, hr, hc, hzero⟩ | hdrained := h
  · cases hmove
    exact .inr (.inl ⟨rfl, ((shutLeases_eq _ c).2 c).mpr (.inr rfl)⟩)
  · cases hmove
    exact .inr (.inr (.inl ⟨rfl, hr, ((shutLeases_eq _ c).2 c).mpr (.inr rfl)⟩))
  · cases hmove with
    | drainReceive hzero => exact .inr (.inr (.inr (.inl ⟨rfl, hr, hc, hzero⟩)))
  · cases hmove with
    | drainCapture hzero' =>
      refine .inr (.inr (.inr (.inr fun side => ?_)))
      cases side
      · exact ⟨hr, hzero⟩
      · exact ⟨hc, hzero'⟩
  · exact .inr (.inr (.inr (.inr (hdrained.keep hstays))))

theorem LeaseReach.stays_closed (h : LeaseReach s) (hok : NoResume c s a) (hstep : leaseSystem.step s a = some s')
    (side : Side) (hclosed : closedBy (s.words.word side) c) :
    closedBy (s'.words.word side) c ∧
      leaseCount (s'.words.word side) ≤ leaseCount (s.words.word side) := by
  have hinv := LeaseReach.inv h
  obtain ⟨i, th, -, -, -, rfl⟩ | ⟨i, spurious, w, th, rfl, hthread, rfl⟩ := stepLease_cases hstep
  · exact ⟨hclosed, Nat.le_refl _⟩
  · have hmove := stepLeaseThread_cases (hinv.opened i) hthread
    refine hmove.stays_closed ((hinv.count side).le i) (fun pc hpc => ?_) hclosed
    have hok : (s.thr i).resumes c = false := hok
    simp [hpc, LeaseThread.resumes] at hok

/-- Until the scope readmits, its closing only goes forward. -/
theorem Closing.path (hs : LeaseReach s) (h : Closing c s.words (s.thr t))
    (hpath : Machine.Path leaseSystem (NoResume c) s s') : Closing c s'.words (s'.thr t) := by
  refine hpath.invariant (P := fun s => Closing c s.words (s.thr t)) h ?_
  intro s₁ a s₂ hpath₁ hclosing hok hstep
  have hreach₁ : LeaseReach s₁ := hpath₁.reach (fun _ _ _ => trivial) hs
  have hstays := LeaseReach.stays_closed hreach₁ hok hstep
  obtain ⟨i, th, hidle, -, -, rfl⟩ | ⟨i, spurious, w, th, rfl, hthread, rfl⟩ := stepLease_cases hstep
  · by_cases hi : t = i
    · -- an idle thread has returned from its closing
      subst hi
      rw [hidle] at hclosing
      obtain h | ⟨h, -⟩ | ⟨h, -⟩ | ⟨h, -⟩ | hdrained := hclosing
      · cases h
      · cases h
      · cases h
      · cases h
      · exact .inr (.inr (.inr (.inr hdrained)))
    · simpa only [LeaseWorld.set, Function.update_of_ne hi] using hclosing
  · by_cases hi : t = i
    · subst hi
      have hmove := stepLeaseThread_cases ((LeaseReach.inv hreach₁).opened t) hthread
      simpa only [LeaseWorld.set, Function.update_self] using hclosing.advance hmove hstays
    · simpa only [LeaseWorld.set, Function.update_of_ne hi] using hclosing.keep hstays

theorem Drained.path (hs : LeaseReach s) (h : Drained c s.words) (hpath : Machine.Path leaseSystem (NoResume c) s s') :
    Drained c s'.words := by
  refine hpath.invariant (P := fun s => Drained c s.words) h ?_
  intro s₁ a s₂ hpath₁ hdrained hok hstep
  have hreach₁ : LeaseReach s₁ := hpath₁.reach (fun _ _ _ => trivial) hs
  exact hdrained.keep (LeaseReach.stays_closed hreach₁ hok hstep)

theorem resumeLeases_bit (w : Word) (c : Closer) {i : Nat} (hi : i ≠ c.bit) :
    (resumeLeases w c).getLsbD i = w.getLsbD i := by
  rw [resumeLeases, BitVec.getLsbD_and, Closer.mask_eq, BitVec.getLsbD_not, BitVec.getLsbD_twoPow]
  by_cases hlt : i < 64
  · simp [hlt, hi.symm]
  · rw [BitVec.getLsbD_of_ge w i (by omega), Bool.false_and]

theorem resumeLeases_twice (w : Word) (c : Closer) :
    resumeLeases (resumeLeases w c) c = resumeLeases w c := by
  rw [resumeLeases, resumeLeases, BitVec.and_assoc, BitVec.and_self]

/-- The number of live leases of a direction is what its word counts. -/
def LeaseWorld.CountsLeases (s : LeaseWorld) : Prop :=
  ∀ side, {t | s.thr t = .hold side}.Finite ∧ {t | s.thr t = .hold side}.ncard = leaseCount (s.words.word side)

theorem LeaseReach.countsLeases (h : LeaseReach s) : s.CountsLeases :=
  fun side => Tally.ncard ((LeaseReach.inv h).count side)

theorem LeaseReach.closer (h : LeaseReach s) (hstep : leaseSystem.step s a = some s') (side : Side) (c : Closer) :
    (closedBy (s'.words.word side) c ↔ closedBy (s.words.word side) c) ∨
      (∃ t spurious pc, a = .advance t spurious ∧ s.thr t = .quiesce c pc) ∨
      ∃ t spurious pc, a = .advance t spurious ∧ s.thr t = .resume c pc := by
  have hinv := LeaseReach.inv h
  obtain ⟨t, th, -, -, -, rfl⟩ | ⟨t, spurious, w, th, rfl, hthread, rfl⟩ := stepLease_cases hstep
  · exact .inl Iff.rfl
  · by_cases hquiesce : ∃ pc, s.thr t = .quiesce c pc
    · obtain ⟨pc, hpc⟩ := hquiesce
      exact .inr (.inl ⟨t, spurious, pc, rfl, hpc⟩)
    by_cases hresume : ∃ pc, s.thr t = .resume c pc
    · obtain ⟨pc, hpc⟩ := hresume
      exact .inr (.inr ⟨t, spurious, pc, rfl, hpc⟩)
    have hmove := stepLeaseThread_cases (hinv.opened t) hthread
    refine .inl (hmove.closer side c ((hinv.count side).le t) ?_ ?_)
    · exact fun pc hpc => hquiesce ⟨pc, hpc⟩
    · exact fun pc hpc => hresume ⟨pc, hpc⟩

theorem LeaseReach.granted (h : LeaseReach s) (hstep : leaseSystem.step s a = some s') (hbefore : s.thr t ≠ .hold side)
    (hafter : s'.thr t = .hold side) (c : Closer) : ¬closedBy (s.words.word side) c := by
  have hinv := LeaseReach.inv h
  obtain ⟨i, th, -, hhold, -, rfl⟩ | ⟨i, spurious, w, th, -, hthread, rfl⟩ := stepLease_cases hstep
  · by_cases hi : t = i
    · subst hi
      simp only [LeaseWorld.set, Function.update_self] at hafter
      exact absurd hafter (hhold side)
    · simp only [LeaseWorld.set, Function.update_of_ne hi] at hafter
      exact absurd hafter hbefore
  · by_cases hi : t = i
    · subst hi
      simp only [LeaseWorld.set, Function.update_self] at hafter
      subst hafter
      generalize hth : s.thr t = th at hbefore
      have hmove := stepLeaseThread_cases (hinv.opened t) hthread
      rw [hth] at hmove
      cases hmove with
      | observe hhold _ => exact absurd rfl (hhold side)
      | grant hgrant => exact (acquireLease_eq hgrant).2.2 c
    · simp only [LeaseWorld.set, Function.update_of_ne hi] at hafter
      exact absurd hafter hbefore

/-- After a quiesce that no readmission of its scope has met, no lease is live. -/
theorem LeaseReach.drained {s₀ s₁ s₂ s₃ : LeaseWorld} (h : LeaseReach s₀) (hbegin : s₀.thr t = .quiesce c .shutReceive)
    (hpath : Machine.Path leaseSystem (NoResume c) s₀ s₁) (hlast : s₁.thr t = .quiesce c .drainCapture)
    (hreturn : leaseSystem.step s₁ (.advance t spurious) = some s₂)
    (hpath' : Machine.Path leaseSystem (NoResume c) s₂ s₃) (i : ThreadId) (side : Side) : s₃.thr i ≠ .hold side := by
  have hok : NoResume c s₁ (.advance t spurious) := by
    change (s₁.thr t).resumes c = false
    rw [hlast]
    rfl
  have hpath₂ := hpath.step hok hreturn
  have hreach₂ : LeaseReach s₂ := hpath₂.reach (fun _ _ _ => trivial) h
  -- the step that returns leaves the thread idle, so nothing but the drained state is left
  have hidle : s₂.thr t = .idle := by
    obtain ⟨⟨w, th⟩, hthread, rfl⟩ := Option.map_eq_some_iff.mp hreturn
    rw [hlast] at hthread
    simp only [stepLeaseThread, quiesceLeases] at hthread
    split at hthread <;> cases hthread
    exact Function.update_self ..
  have hclosing : Closing c s₂.words .idle := hidle ▸ Closing.path h (.inl hbegin) hpath₂
  obtain hth | ⟨hth, -⟩ | ⟨hth, -⟩ | ⟨hth, -⟩ | hdrained := hclosing
  · cases hth
  · cases hth
  · cases hth
  · cases hth
  intro hhold
  have hzero := (Drained.path hreach₂ hdrained hpath' side).2
  have hlive := ((LeaseReach.inv (hpath'.reach (fun _ _ _ => trivial) hreach₂)).count side).le i
  rw [hzero, hhold, LeaseThread.live_hold] at hlive
  omega

/-- In every interleaving: each word counts its live leases; a step changes a closer only if it is a step of
a quiesce or a readmission of that scope, so no grant and no drop does; a lease is granted only by a word
without closers; a readmission changes its own bit only, and a second one nothing; and once a quiesce of a
scope has returned no lease is live, as long as no readmission of that scope has executed since that
quiesce began. -/
theorem leases_exact :
    (∀ s, LeaseReach s → s.CountsLeases) ∧
    (∀ s a s', LeaseReach s → leaseSystem.step s a = some s' → ∀ side c,
      (closedBy (s'.words.word side) c ↔ closedBy (s.words.word side) c) ∨
      (∃ t spurious pc, a = .advance t spurious ∧ s.thr t = .quiesce c pc) ∨
      ∃ t spurious pc, a = .advance t spurious ∧ s.thr t = .resume c pc) ∧
    (∀ s a s' t side, LeaseReach s → leaseSystem.step s a = some s' → s.thr t ≠ .hold side →
      s'.thr t = .hold side → ∀ c, ¬closedBy (s.words.word side) c) ∧
    (∀ w c, (∀ i, i ≠ c.bit → (resumeLeases w c).getLsbD i = w.getLsbD i) ∧
      resumeLeases (resumeLeases w c) c = resumeLeases w c) ∧
    (∀ c t s₀ s₁ s₂ s₃ spurious, LeaseReach s₀ → s₀.thr t = .quiesce c .shutReceive →
      Machine.Path leaseSystem (NoResume c) s₀ s₁ → s₁.thr t = .quiesce c .drainCapture →
      leaseSystem.step s₁ (.advance t spurious) = some s₂ →
      Machine.Path leaseSystem (NoResume c) s₂ s₃ → ∀ i side, s₃.thr i ≠ .hold side) := by
  refine ⟨fun s => LeaseReach.countsLeases, fun s a s' h hstep => LeaseReach.closer h hstep, ?_, ?_, ?_⟩
  · exact fun s a s' t side h hstep hbefore hafter => LeaseReach.granted h hstep hbefore hafter
  · exact fun w c => ⟨fun i => resumeLeases_bit w c, resumeLeases_twice w c⟩
  · exact fun c t s₀ s₁ s₂ s₃ spurious h hbegin hpath hlast hreturn hpath' =>
      LeaseReach.drained h hbegin hpath hlast hreturn hpath'

/-- No lease and no closer. -/
def LeaseWorld.initial : LeaseWorld where
  words := ⟨0, 0⟩
  thr := fun _ => .idle

theorem leaseReach_initial : LeaseReach .initial := .init ⟨rfl, fun _ => rfl⟩

/-- A lease is granted, a quiesce of the owner scope starts, and the lease is dropped. -/
def quiesceBegun : LeaseWorld :=
  leaseSystem.after .initial [.acquire 1 .receive, .advance 1 false, .advance 1 true, .advance 1 false,
    .quiesce 0 .owner, .advance 1 false]

/-- The quiesce has drained one direction, and another party acquires in the other one. -/
def quiesceDraining : LeaseWorld :=
  leaseSystem.after quiesceBegun [.advance 0 false, .acquire 2 .capture, .advance 0 false, .advance 0 false]

/-- The quiesce returns, and the acquisition is refused. -/
theorem leases_exact_drained :
    (leaseSystem.after (leaseSystem.after quiesceDraining [.advance 0 false]) [.advance 2 false]).thr 2
        = .idle ∧
      ∀ i side, (leaseSystem.after (leaseSystem.after quiesceDraining [.advance 0 false])
        [.advance 2 false]).thr i ≠ .hold side := by
  refine ⟨by decide +kernel, leases_exact.2.2.2.2 .owner 0 quiesceBegun quiesceDraining
    (leaseSystem.after quiesceDraining [.advance 0 false]) _ false ?_ (by decide +kernel) ?_
    (by decide +kernel) ?_ ?_⟩
  · exact Machine.System.reach_after leaseReach_initial _
  · exact Machine.System.path_after_keeping (by decide +kernel) .refl
  · exact Machine.System.step_after (by decide +kernel)
  · exact Machine.System.path_after_keeping (by decide +kernel) .refl

/-- A quiesce of the owner scope has closed both words and drained the first one; another party readmits
the scope, and a lease is granted. -/
def readmittedMeanwhile : LeaseWorld :=
  leaseSystem.after .initial [.quiesce 0 .owner, .advance 0 false, .advance 0 false, .advance 0 false,
    .resume 1 .owner, .advance 1 false, .advance 1 false, .acquire 2 .receive, .advance 2 false,
    .advance 2 false]

/-- A readmission that overlaps the quiesce is enough: the quiesce returns, no readmission executes after
that, and a lease is live. -/
theorem lease_live_after_quiesce :
    ∃ c t s₁ s₂ spurious, LeaseReach s₁ ∧ s₁.thr t = .quiesce c .drainCapture ∧
      leaseSystem.step s₁ (.advance t spurious) = some s₂ ∧ ∃ i side, s₂.thr i = .hold side :=
  ⟨.owner, 0, readmittedMeanwhile, leaseSystem.after readmittedMeanwhile [.advance 0 false], false,
    Machine.System.reach_after leaseReach_initial _, by decide +kernel,
    Machine.System.step_after (by decide +kernel), 2, .receive, by decide +kernel⟩

end WinTap
