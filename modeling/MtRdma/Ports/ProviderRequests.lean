import MtRdma.Ports.CreationPaths

/-!
# What reaches the provider

What the provider is given, on either creation path, is compared with what the
application has asked for, in every field of the request.
-/

namespace MtRdma.Ports.ProviderRequests

open RdmaHooks
open CreationPaths
open HookPieces (SameAccounts)

/-! ## What is permitted -/

/-- QP control is on, and both depths are limited. -/
structure Controlled (config : InterceptConfig) : Prop where
  enabled : config.enableQpControl = true
  send : 0 < config.maxSendWrLimit
  recv : 0 < config.maxRecvWrLimit

/-- What the provider may be given for a request. -/
structure Permitted {ω : Type} (config : InterceptConfig) (request given : InitAttr ω) :
    Prop where
  rc : given.qpType = .rc → config.allowRcQp = true
  uc : given.qpType = .uc → config.allowUcQp = true
  ud : given.qpType = .ud → config.allowUdQp = true
  send_le : given.cap.maxSendWr ≤ config.maxSendWrLimit
  recv_le : given.cap.maxRecvWr ≤ config.maxRecvWrLimit
  send_eq : given.cap.maxSendWr.toNat =
    min request.cap.maxSendWr.toNat config.maxSendWrLimit.toNat
  recv_eq : given.cap.maxRecvWr.toNat =
    min request.cap.maxRecvWr.toNat config.maxRecvWrLimit.toNat
  qpType : given.qpType = request.qpType
  maxSendSge : given.cap.maxSendSge = request.cap.maxSendSge
  maxRecvSge : given.cap.maxRecvSge = request.cap.maxRecvSge
  maxInlineData : given.cap.maxInlineData = request.cap.maxInlineData
  other : given.other = request.other

/-! ## The path of a request -/

/-- A positive limit lowers a depth to the smaller of the two. -/
theorem toNat_lowered {limit : UInt32} (hpos : 0 < limit) (depth : UInt32) :
    (if 0 < limit ∧ limit < depth then limit else depth).toNat =
      min depth.toNat limit.toNat := by
  by_cases hlt : limit < depth
  · rw [if_pos ⟨hpos, hlt⟩]
    rw [UInt32.lt_iff_toNat_lt] at hlt
    omega
  · rw [if_neg (fun h => hlt h.2)]
    rw [UInt32.lt_iff_toNat_lt] at hlt
    omega

/-- An admitted type, lowered and stored into the request. -/
theorem permitted_of_clip {ω : Type} {config : InterceptConfig} (hconfig : Controlled config)
    (request : InitAttr ω) (htype : qpTypeAllowed config request.qpType = true) :
    Permitted config request (request.stored (clipAttr config request.seen)) := by
  have hsend := toNat_lowered hconfig.send request.cap.maxSendWr
  have hrecv := toNat_lowered hconfig.recv request.cap.maxRecvWr
  have hclip : clipAttr config request.seen =
      { request.seen with
        maxRecvWr :=
          if 0 < config.maxRecvWrLimit ∧ config.maxRecvWrLimit < request.cap.maxRecvWr then
            config.maxRecvWrLimit else request.cap.maxRecvWr
        maxSendWr :=
          if 0 < config.maxSendWrLimit ∧ config.maxSendWrLimit < request.cap.maxSendWr then
            config.maxSendWrLimit else request.cap.maxSendWr } := if_pos hconfig.enabled
  rw [hclip]
  exact {
    rc := fun h => by rw [show request.qpType = _ from h] at htype; exact htype
    uc := fun h => by rw [show request.qpType = _ from h] at htype; exact htype
    ud := fun h => by rw [show request.qpType = _ from h] at htype; exact htype
    send_le := UInt32.le_iff_toNat_le.mpr (hsend.trans_le (Nat.min_le_right ..))
    recv_le := UInt32.le_iff_toNat_le.mpr (hrecv.trans_le (Nat.min_le_right ..))
    send_eq := hsend
    recv_eq := hrecv
    qpType := rfl
    maxSendSge := rfl
    maxRecvSge := rfl
    maxInlineData := rfl
    other := rfl }

section Paths

variable {env : HookEnv} {attr given : QpInitAttr} {v : View}

/-- Past the checks the provider is given the request lowered to the
configuration in force before the tenant step. -/
theorem createForTenant_invoked {real : QpInitAttr → Option Nat}
    (h : (createForTenant env real attr v).1.invoked = some given) :
    given = clipAttr v.proc.intercept.config attr := by
  have hintercept := (SameAccounts.tenantStep env v).intercept
  have hcases := createForTenant_cases env real attr v
  generalize createForTenant env real attr v = result at hcases h
  rw [← hintercept]
  cases hcases with
  | denied => cases h
  | created | failed => exact (Option.some.inj h).symm

theorem qpTypeAllowed_of_extended (hcontrol : v.proc.intercept.config.enableQpControl = true)
    (h : checkQpCreationRestrictionsExtended attr v = true) :
    qpTypeAllowed v.proc.intercept.config attr.qpType = true := by
  unfold checkQpCreationRestrictionsExtended at h
  rw [if_neg (by simp [hcontrol])] at h
  simp only [Bool.and_eq_true] at h
  exact h.1.1

theorem creation_invoked {verb : Option (QpInitAttr → Option Nat)} {permitted : Bool}
    {result : CreateQpResult × View} (hcases : CreationOutcome env verb permitted attr v result)
    (henabled : rdmaInterceptIsEnabled v.proc = true) (h : result.1.invoked = some given) :
    permitted = true ∧ given = clipAttr v.proc.intercept.config attr := by
  cases hcases with
  | missing | refused => cases h
  | passed _ hoff => simp [henabled] at hoff
  | checked _ _ hcheck => exact ⟨hcheck, createForTenant_invoked h⟩

end Paths

/-- Under QP control with both depths limited, the provider is only ever given
a request of a permitted type, lowered to the limits and otherwise as the
application has made it, on either path and whatever the shared segments
hold. -/
theorem provider_given_permitted (env : HookEnv) (v : View) :
    (∀ (provider : InitAttr PlainFields → Option Nat) (request given : InitAttr PlainFields),
      rdmaInterceptIsEnabled (hooksInitOnce env v).proc = true →
      Controlled (hooksInitOnce env v).proc.intercept.config →
      passed request (createPlain env provider request v).1 = some given →
      Permitted (hooksInitOnce env v).proc.intercept.config request given) ∧
    (∀ (provider : Nat → InitAttr ExtendedFields → Option Nat) (context : Nat)
        (request given : InitAttr ExtendedFields),
      rdmaInterceptIsEnabled v.proc = true → Controlled v.proc.intercept.config →
      passed request (createExtended env provider context request v).1 = some given →
      Permitted v.proc.intercept.config request given) := by
  constructor
  · intro provider request given henabled hconfig h
    obtain ⟨attr, hinvoked, rfl⟩ := Option.map_eq_some_iff.mp h
    obtain ⟨hcheck, rfl⟩ := creation_invoked (ibvCreateQp_cases ..) henabled hinvoked
    have hextended := (checkQpCreationRestrictions_iff_extended _ _).mp hcheck
    exact permitted_of_clip hconfig request (qpTypeAllowed_of_extended hconfig.enabled hextended.1)
  · intro provider context request given henabled hconfig h
    obtain ⟨attr, hinvoked, rfl⟩ := Option.map_eq_some_iff.mp h
    obtain ⟨hcheck, rfl⟩ := creation_invoked (createQpExWrapper_cases ..) henabled hinvoked
    exact permitted_of_clip hconfig request (qpTypeAllowed_of_extended hconfig.enabled hcheck)

/-! ## A request above the limit -/

def extendedFields : ExtendedFields := ⟨plainFields, 0, 2, 0, 0, 0, 0, [], 0, 0⟩

theorem deepRequest_permitted :
    Permitted controlledView.proc.intercept.config (sendRequest 2000 extendedFields)
      (sendRequest 1024 extendedFields) := by
  have hgiven : passed (sendRequest 2000 extendedFields)
      (createExtended quietEnv (fun _ _ => some 5) 1 (sendRequest 2000 extendedFields)
        controlledView).1 = some (sendRequest 1024 extendedFields) := by
    rw [createExtended_lowered]
    rfl
  exact (provider_given_permitted quietEnv controlledView).2 (fun _ _ => some 5) 1 _ _ rfl
    ⟨rfl, by decide, by decide⟩ hgiven

end MtRdma.Ports.ProviderRequests
