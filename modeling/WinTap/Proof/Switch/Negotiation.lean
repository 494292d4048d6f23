import WinTap.Switch.Negotiation

/-!
# Which mode the endpoints are left in

The decision to reopen the endpoints is taken from how the answers were classified. An answer with another version or
other flags counts as incompatible although the driver has put the handle into adaptive mode. When neither endpoint is
supported, such a handle is kept for legacy polling.
-/

namespace WinTap.SwitchRuntime

variable {answer : ControlAnswer} {capability : AdaptiveEndpointCapability} {first second : EndpointConfig}
  {failures : Option Dword × Option Dword} {endpoints : OpenEndpoint × OpenEndpoint}

/-- The driver accepted the request as it was made. -/
def ControlAnswer.Supported (answer : ControlAnswer) : Prop :=
  answer = .succeeded adaptiveEnableResponseSize adaptivePollingProtocolVersion adaptiveInterestAll

/-- The driver accepted the request and answered with another version or other flags. -/
def ControlAnswer.Incompatible (answer : ControlAnswer) : Prop :=
  ∃ version flags, answer = .succeeded adaptiveEnableResponseSize version flags ∧
    (version ≠ adaptivePollingProtocolVersion ∨ flags ≠ adaptiveInterestAll)

/-! ### One endpoint -/

/-- How an answer is classified, and the mode it leaves. -/
inductive Classified : ControlAnswer → AdaptiveEndpointCapability → HandleMode → Prop
  | unsupported {error : Dword} : Classified (.failed error) .unsupported .legacy
  | incompatible {version flags : Dword} (h : version ≠ adaptivePollingProtocolVersion ∨ flags ≠ adaptiveInterestAll) :
      Classified (.succeeded adaptiveEnableResponseSize version flags) .incompatible (.adaptive version flags)
  | supported :
      Classified (.succeeded adaptiveEnableResponseSize adaptivePollingProtocolVersion adaptiveInterestAll)
        (.supported adaptivePollingProtocolVersion adaptiveInterestAll)
        (.adaptive adaptivePollingProtocolVersion adaptiveInterestAll)

theorem negotiateAdaptiveEndpoint_classified {endpoint : OpenEndpoint} (hlegacy : endpoint.mode = .legacy)
    (h : negotiateAdaptiveEndpoint endpoint.guid answer = .ok capability) :
    Classified answer capability (endpoint.enable answer).mode := by
  cases answer with
  | failed error =>
    simp only [negotiateAdaptiveEndpoint] at h
    split at h
    · cases h
      rw [OpenEndpoint.enable, hlegacy]
      exact .unsupported
    · cases h
  | succeeded bytes version flags =>
    simp only [negotiateAdaptiveEndpoint] at h
    split at h
    · cases h
    rename_i hbytes
    obtain rfl := not_not.mp hbytes
    split at h
    · rename_i hother
      cases h
      exact .incompatible hother
    · rename_i hsame
      obtain ⟨hversion, hflags⟩ := not_or.mp hsame
      obtain rfl := not_not.mp hversion
      obtain rfl := not_not.mp hflags
      cases h
      exact .supported

section
variable {mode : HandleMode}

theorem Classified.supported_iff (h : Classified answer capability mode) :
    answer.Supported ↔ capability = .supported adaptivePollingProtocolVersion adaptiveInterestAll := by
  cases h with
  | unsupported => exact ⟨fun h => (by cases h), fun h => (by cases h)⟩
  | incompatible hother =>
    refine ⟨fun h => ?_, fun h => (by cases h)⟩
    cases h
    exact hother.elim (absurd rfl) (absurd rfl)
  | supported => exact ⟨fun _ => rfl, fun _ => rfl⟩

theorem Classified.isSupported_iff (h : Classified answer capability mode) :
    capability.isSupported = true ↔ answer.Supported := by
  rw [h.supported_iff]
  cases h with
  | unsupported | incompatible _ => exact ⟨fun h => (by cases h), fun h => (by cases h)⟩
  | supported => exact ⟨fun _ => rfl, fun _ => rfl⟩

theorem Classified.mode_of_supported (h : Classified answer capability mode) (hsupported : answer.Supported) :
    mode = .adaptive adaptivePollingProtocolVersion adaptiveInterestAll := by
  cases h with
  | unsupported => cases hsupported
  | incompatible _ | supported =>
    cases hsupported
    rfl

/-- The handle is left in adaptive mode by the answers that are accepted, supported or not. -/
theorem Classified.legacy_iff (h : Classified answer capability mode) :
    mode = .legacy ↔ ¬answer.Supported ∧ ¬answer.Incompatible := by
  cases h with
  | unsupported =>
    refine ⟨fun _ => ⟨fun h => (by cases h), ?_⟩, fun _ => rfl⟩
    rintro ⟨version, flags, heq, -⟩
    cases heq
  | incompatible hother => exact ⟨fun h => (by cases h), fun h => absurd ⟨_, _, rfl, hother⟩ h.2⟩
  | supported => exact ⟨fun h => (by cases h), fun h => absurd rfl h.1⟩

end

/-! ### Both endpoints -/

theorem openEndpoints_legacy (h : openEndpoints first second failures = .ok endpoints) :
    endpoints.1.mode = .legacy ∧ endpoints.2.mode = .legacy := by
  obtain ⟨_ | error, _ | error'⟩ := failures <;> cases h
  exact ⟨rfl, rfl⟩

/-- Endpoints that were opened again are in legacy mode. -/
theorem reopenLegacyEndpoints_legacy {failures : Nat → Option Dword × Option Dword} {left : Nat}
    (h : reopenLegacyEndpointsAfterCleanup first second failures left = .ok endpoints) :
    endpoints.1.mode = .legacy ∧ endpoints.2.mode = .legacy := by
  induction left with
  | zero => cases h
  | succ left ih =>
    rw [reopenLegacyEndpointsAfterCleanup] at h
    split at h
    · rename_i hopened
      cases h
      exact openEndpoints_legacy hopened
    · split at h
      · exact ih h
      · cases h

/-- The switch polls adaptively exactly when both answers are supported. -/
theorem selectAdaptivePolling_isSome {first second : ControlAnswer}
    {capability capability' : AdaptiveEndpointCapability} {mode mode' : HandleMode}
    (h : Classified first capability mode) (h' : Classified second capability' mode') :
    (selectAdaptivePolling [capability, capability']).isSome = true ↔ first.Supported ∧ second.Supported := by
  rw [h.supported_iff, h'.supported_iff]
  cases h with
  | unsupported | incompatible _ => exact ⟨fun h => (by cases h), fun h => (by cases h.1)⟩
  | supported =>
    cases h' with
    | unsupported | incompatible _ => exact ⟨fun h => absurd h (by decide), fun h => (by cases h.2)⟩
    | supported => exact ⟨fun _ => ⟨rfl, rfl⟩, fun _ => by decide⟩

/-- How the endpoints are left: opened again when one of them is supported and the other one is not, and as they were
negotiated otherwise. -/
structure Negotiated (answers : ControlAnswer × ControlAnswer) (adaptivePolling : Bool)
    (endpoints : OpenEndpoint × OpenEndpoint) : Prop where
  polling : adaptivePolling = true ↔ answers.1.Supported ∧ answers.2.Supported
  reopened : adaptivePolling = false → answers.1.Supported ∨ answers.2.Supported →
    endpoints.1.mode = .legacy ∧ endpoints.2.mode = .legacy
  kept : adaptivePolling = true ∨ ¬(answers.1.Supported ∨ answers.2.Supported) →
    ∃ capability capability', Classified answers.1 capability endpoints.1.mode ∧
      Classified answers.2 capability' endpoints.2.mode

theorem startEndpoints_negotiated {answers : ControlAnswer × ControlAnswer}
    {failuresAgain : Nat → Option Dword × Option Dword} {adaptivePolling : Bool}
    (h : startEndpoints first second failures answers failuresAgain = .ok (adaptivePolling, endpoints)) :
    Negotiated answers adaptivePolling endpoints := by
  rw [startEndpoints] at h
  cases hopened : openEndpoints first second failures with
  | error error =>
    rw [hopened] at h
    cases h
  | ok opened =>
    obtain ⟨hlegacy, hlegacy'⟩ := openEndpoints_legacy hopened
    simp only [hopened, negotiateAdaptivePolling] at h
    cases hfirst : negotiateAdaptiveEndpoint opened.1.guid answers.1 with
    | error error =>
      rw [hfirst] at h
      cases h
    | ok capability => cases hsecond : negotiateAdaptiveEndpoint opened.2.guid answers.2 with
      | error error =>
        rw [hfirst, hsecond] at h
        cases h
      | ok capability' =>
        have hclassified := negotiateAdaptiveEndpoint_classified hlegacy hfirst
        have hclassified' := negotiateAdaptiveEndpoint_classified hlegacy' hsecond
        have hpolling := selectAdaptivePolling_isSome hclassified hclassified'
        have hsupported : (capability.isSupported || capability'.isSupported) = true ↔
            answers.1.Supported ∨ answers.2.Supported := by
          rw [Bool.or_eq_true, hclassified.isSupported_iff, hclassified'.isSupported_iff]
        simp only [hfirst, hsecond, bind, Except.bind, pure, Except.pure] at h
        split at h
        · rename_i hreopen
          rw [Bool.and_eq_true, Bool.not_eq_true'] at hreopen
          cases hagain : reopenLegacyEndpointsAfterCleanup first second failuresAgain cleanupReopenAttempts with
          | error error =>
            rw [hagain] at h
            cases h
          | ok reopened =>
            rw [hagain] at h
            cases h
            refine ⟨hpolling, fun _ _ => reopenLegacyEndpoints_legacy hagain, fun hkept => ?_⟩
            rw [hreopen.1] at hkept
            exact absurd (hsupported.mp hreopen.2) (hkept.resolve_left Bool.false_ne_true)
        · rename_i hkeep
          cases h
          refine ⟨hpolling, fun hfallback hone => ?_, fun _ => ⟨_, _, hclassified, hclassified'⟩⟩
          rw [hfallback, hsupported.mpr hone] at hkeep
          exact absurd rfl hkeep

/-- With adaptive polling both handles are in adaptive mode with the version and all the flags. In the fallback both are
in legacy mode exactly when an incompatible answer comes only together with a supported one. -/
theorem negotiation_keeps_one_mode {first second : EndpointConfig} {failures : Option Dword × Option Dword}
    {answers : ControlAnswer × ControlAnswer} {failuresAgain : Nat → Option Dword × Option Dword}
    {adaptivePolling : Bool} {endpoints : OpenEndpoint × OpenEndpoint}
    (h : startEndpoints first second failures answers failuresAgain = .ok (adaptivePolling, endpoints)) :
    (adaptivePolling = true →
      endpoints.1.mode = .adaptive adaptivePollingProtocolVersion adaptiveInterestAll ∧
        endpoints.2.mode = .adaptive adaptivePollingProtocolVersion adaptiveInterestAll) ∧
    (adaptivePolling = false → ((endpoints.1.mode = .legacy ∧ endpoints.2.mode = .legacy) ↔
      (answers.1.Incompatible ∨ answers.2.Incompatible → answers.1.Supported ∨ answers.2.Supported))) := by
  have hstart := startEndpoints_negotiated h
  refine ⟨fun hadaptive => ?_, fun hfallback => ?_⟩
  · obtain ⟨hfirst, hsecond⟩ := hstart.polling.mp hadaptive
    obtain ⟨capability, capability', hclassified, hclassified'⟩ := hstart.kept (.inl hadaptive)
    exact ⟨hclassified.mode_of_supported hfirst, hclassified'.mode_of_supported hsecond⟩
  · by_cases hone : answers.1.Supported ∨ answers.2.Supported
    · exact ⟨fun _ _ => hone, fun _ => hstart.reopened hfallback hone⟩
    · obtain ⟨capability, capability', hclassified, hclassified'⟩ := hstart.kept (.inr hone)
      obtain ⟨hfirst, hsecond⟩ := not_or.mp hone
      rw [hclassified.legacy_iff, hclassified'.legacy_iff]
      refine ⟨fun hboth hincompatible => ?_, fun hcondition => ?_⟩
      · exact (hincompatible.elim hboth.1.2 hboth.2.2).elim
      · exact ⟨⟨hfirst, fun h => hone (hcondition (.inl h))⟩, ⟨hsecond, fun h => hone (hcondition (.inr h))⟩⟩

/-- An endpoint of an example. -/
def exampleEndpoint : EndpointConfig := ⟨text "25d32edf-7c8c-4f09-901f-650b232e864d", text "\\\\?\\tap"⟩

/-- One driver answers with another version and the other one as it was asked: both endpoints are opened again. -/
theorem negotiation_keeps_one_mode_reopened :
    ∃ endpoints, startEndpoints exampleEndpoint exampleEndpoint (none, none)
        (.succeeded 8 2 3, .succeeded 8 1 3) (fun _ => (none, none)) = .ok (false, endpoints) ∧
      endpoints.1.mode = .legacy ∧ endpoints.2.mode = .legacy := by
  have hstart : startEndpoints exampleEndpoint exampleEndpoint (none, none) (.succeeded 8 2 3, .succeeded 8 1 3)
      (fun _ => (none, none)) = .ok (false, ⟨exampleEndpoint.guid, .legacy⟩, ⟨exampleEndpoint.guid, .legacy⟩) := by
    rfl
  exact ⟨_, hstart, ((negotiation_keeps_one_mode hstart).2 rfl).mpr fun _ => .inr rfl⟩

/-- Both drivers answer with another version: the switch goes on with legacy polling on handles in adaptive mode. -/
theorem incompatible_endpoints_stay_adaptive :
    ∃ endpoints, startEndpoints exampleEndpoint exampleEndpoint (none, none)
        (.succeeded 8 2 3, .succeeded 8 2 3) (fun _ => (none, none)) = .ok (false, endpoints) ∧
      endpoints.1.mode = .adaptive 2 3 ∧ endpoints.2.mode = .adaptive 2 3 :=
  ⟨_, rfl, rfl, rfl⟩

end WinTap.SwitchRuntime
