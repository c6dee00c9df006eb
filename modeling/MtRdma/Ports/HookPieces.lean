import MtRdma.Verified.Interleaving
import MtRdma.Ports.HookSpec

/-!
# The hooks in pieces

A hook call is not one step.  It reads the process table, calls into the
tenant store, invokes the real verb, changes the counters of the process under
`resource_mutex`, and writes its entry of the process table, and other threads
and processes act in between.  Here the calls that count QPs and MRs are cut
into these pieces.  A thread is at a `Pc`; what it shares with the other
threads of its process is the `View` of the hooks and the objects that exist.

What is private to the tenant store stays in one piece: resolving the tenant
and counting for it changes neither the counters of the process nor the
process table.

The pieces of an undisturbed call are the sequential hook (`ibvCreateQp_alone`
and its companions).  What a piece can do to the counters, the table and the
objects is said once, in `Moved`.
-/

namespace MtRdma.Ports.HookPieces

open Verified.Interleaving
open SharedMemory
open RdmaHooks

variable {v : View} {env : HookEnv}

/-! ## Objects -/

/-- What the real verbs create: a QP, or an MR with its length field. -/
inductive Object where
  | qp (handle : Nat)
  | mr (handle : Nat) (length : UInt64)
  deriving DecidableEq

def Object.IsQp : Object → Prop
  | .qp _ => True
  | .mr _ _ => False

def Object.IsMr : Object → Prop
  | .qp _ => False
  | .mr _ _ => True

/-- The bytes an object registers. -/
def Object.bytes : Object → Nat
  | .qp _ => 0
  | .mr _ length => length.toNat

instance : DecidablePred Object.IsQp
  | .qp _ => .isTrue trivial
  | .mr _ _ => .isFalse id

instance : DecidablePred Object.IsMr
  | .qp _ => .isFalse id
  | .mr _ _ => .isTrue trivial

/-- What the threads of a process share: the view of the hooks, the objects
that exist, and those among them whose creating hook has returned. -/
structure Shared where
  view : View
  live : Finset Object
  returned : Finset Object

namespace Shared

/-- The real verb has created `o`. -/
def create (s : Shared) (o : Object) : Shared := { s with live := insert o s.live }

/-- The creating hook has returned `o`. -/
def handOver (s : Shared) (o : Object) : Shared := { s with returned := insert o s.returned }

/-- The real verb has destroyed `o`. -/
def destroy (s : Shared) (o : Object) : Shared :=
  { s with live := s.live.erase o, returned := s.returned.erase o }

end Shared

/-! ## The pieces -/

/-- The first part of both restriction checks, up to the global limit.  Only
the plain one looks at the work-request limits. -/
def ownChecks (extended : Bool) (attr : QpInitAttr) (v : View) : Bool :=
  if v.proc.intercept.config.enableQpControl = false then true
  else
    qpTypeAllowed v.proc.intercept.config attr.qpType &&
    processLimitOk v &&
    (extended ||
      (!(v.proc.intercept.config.maxSendWrLimit < attr.maxSendWr) &&
        !(v.proc.intercept.config.maxRecvWrLimit < attr.maxRecvWr)))

/-- The rest of both restriction checks. -/
def globalCheck (v : View) : Bool :=
  if v.proc.intercept.config.enableQpControl = false then true else globalLimitOk v

theorem checkQpCreationRestrictions_eq (attr : QpInitAttr) (v : View) :
    checkQpCreationRestrictions attr v = (ownChecks false attr v && globalCheck v) := by
  unfold checkQpCreationRestrictions ownChecks globalCheck
  split
  · rfl
  · simp [Bool.and_assoc]

theorem checkQpCreationRestrictionsExtended_eq (attr : QpInitAttr) (v : View) :
    checkQpCreationRestrictionsExtended attr v = (ownChecks true attr v && globalCheck v) := by
  unfold checkQpCreationRestrictionsExtended ownChecks globalCheck
  split
  · rfl
  · simp

/-- `shm_update_process_resources` with a usage record read before. -/
def publishUsage (env : HookEnv) (usage : ResourceUsage) (v : View) : View :=
  if v.proc.shmMapped then
    { v with shm := (shmUpdateProcessResources v.proc.pid usage
        (shmReadProcStartTime env.stat) v.shm).2 }
  else v

/-- Where a thread is.  A QP creation goes from `checking` to `publishing`, a
destruction from `destroyed` to `uncounted`, a registration from `mrReady` to
`mrCounted`, and a deregistration from `deregReady` to `mrUncounted`. -/
inductive Pc where
  | idle
  | checking
  | permitted
  | ready (tenantOk : Bool) (tenantId : UInt32)
  | rollingBack (tenantId : UInt32)
  | created (qp : Nat)
  | counted (qp : Nat)
  | publishing (qp : Nat) (usage : ResourceUsage)
  | destroyed (qp : Nat)
  | uncounted
  | mrReady (tenantId : UInt32) (length : UInt64)
  | registered (tenantId : UInt32) (mr : Nat) (length : UInt64)
  | mrCounted (tenantId : UInt32) (mr : Nat) (length : UInt64)
  | deregReady (mr : Nat) (length : UInt64)
  | deregistered (mr : Nat) (length : UInt64)
  | mrUncounted

/-- The pieces.  A verb that creates answers with the new object or fails; one
that destroys a QP is listed where it succeeds, since otherwise the hook does
nothing. -/
inductive Action where
  | checkOwn (extended : Bool) (attr : QpInitAttr)
  | checkGlobal
  | tenantStep (env : HookEnv)
  | createQp (answer : Option Nat)
  | rollback
  | countQp
  | readUsage
  | publish (env : HookEnv)
  | destroyQp (qp : Nat)
  | uncountQp
  | tenantUncountQp (env : HookEnv)
  | checkMr (env : HookEnv) (length : UInt64)
  | regMr (answer : Option Nat)
  | countMr
  | tenantCountMr
  | checkDereg (env : HookEnv) (mr : Nat) (length : UInt64)
  | deregMr (ok : Bool)
  | uncountMr
  | tenantUncountMr (env : HookEnv)

/-- Where the tenant step leads. -/
def afterTenantStep : Option (Bool × UInt32) → Pc
  | none => .idle
  | some (tenantOk, tenantId) => .ready tenantOk tenantId

/-- The two checks of a registration, and where they lead. -/
def mrChecks (env : HookEnv) (length : UInt64) (v : View) : Pc × View :=
  let resolved := getCurrentTenantId env v
  if checkTenantMrLimitInline resolved.1 length resolved.2 = false then (.idle, resolved.2)
  else
    let limited := checkMrRateLimit env resolved.2.proc
    (if limited.1 then .mrReady resolved.1 length else .idle,
      { resolved.2 with proc := limited.2 })

/-- Resolve the tenant and count an object down for it. -/
def tenantUncount (env : HookEnv) (kind : ResourceKind) (v : View) : View :=
  let resolved := getCurrentTenantId env v
  updateTenantResourceCount resolved.1 kind (-1) resolved.2

/-- One piece of a hook.  An object can be destroyed once its creating hook
has returned it. -/
def pieceStep : Pc × Shared → Action → Option (Pc × Shared)
  | (.idle, s), .checkOwn extended attr =>
      some (if ownChecks extended attr s.view then .checking else .idle, s)
  | (.checking, s), .checkGlobal =>
      some (if globalCheck s.view then .permitted else .idle, s)
  | (.permitted, s), .tenantStep env =>
      let tried := tenantStep env s.view
      some (afterTenantStep tried.1, { s with view := tried.2 })
  | (.ready tenantOk tenantId, s), .createQp none =>
      some (if tenantOk then .rollingBack tenantId else .idle, s)
  | (.ready _ _, s), .createQp (some qp) =>
      if .qp qp ∈ s.live then none else some (.created qp, s.create (.qp qp))
  | (.rollingBack tenantId, s), .rollback =>
      some (.idle,
        { s with view := { s.view with tenant := rewriteUsage tenantId rollbackQp s.view.tenant } })
  | (.created qp, s), .countQp =>
      some (.counted qp, { s with view := { s.view with proc := countOwnQp s.view.proc } })
  | (.counted qp, s), .readUsage => some (.publishing qp (ownUsage s.view.proc), s)
  | (.publishing qp usage, s), .publish env =>
      some (.idle, { s with view := publishUsage env usage s.view }.handOver (.qp qp))
  | (.idle, s), .destroyQp qp =>
      if .qp qp ∈ s.returned then some (.destroyed qp, s.destroy (.qp qp)) else none
  | (.destroyed _, s), .uncountQp =>
      some (.uncounted, { s with view := { s.view with proc := uncountOwnQp s.view.proc } })
  | (.uncounted, s), .tenantUncountQp env =>
      some (.idle, { s with view := tenantUncount env .qp s.view })
  | (.idle, s), .checkMr env length =>
      let checked := mrChecks env length s.view
      some (checked.1, { s with view := checked.2 })
  | (.mrReady _ _, s), .regMr none => some (.idle, s)
  | (.mrReady tenantId length, s), .regMr (some mr) =>
      if .mr mr length ∈ s.live then none
      else some (.registered tenantId mr length, s.create (.mr mr length))
  | (.registered tenantId mr length, s), .countMr =>
      some (.mrCounted tenantId mr length,
        { s with view := { s.view with proc := countOwnMr length s.view.proc } })
  | (.mrCounted tenantId mr length, s), .tenantCountMr =>
      some (.idle, { s with view := updateTenantResourceCount tenantId .mr 1 s.view }.handOver
        (.mr mr length))
  | (.idle, s), .checkDereg env mr length =>
      let limited := checkMrRateLimit env s.view.proc
      some (if limited.1 then .deregReady mr length else .idle,
        { s with view := { s.view with proc := limited.2 } })
  | (.deregReady _ _, s), .deregMr false => some (.idle, s)
  | (.deregReady mr length, s), .deregMr true =>
      if .mr mr length ∈ s.returned then
        some (.deregistered mr length, s.destroy (.mr mr length))
      else none
  | (.deregistered _ length, s), .uncountMr =>
      some (.mrUncounted,
        { s with view := { s.view with proc := uncountOwnMr length s.view.proc } })
  | (.mrUncounted, s), .tenantUncountMr env =>
      some (.idle, { s with view := tenantUncount env .mr s.view })
  | _, _ => none

/-! ## A call that nobody disturbs -/

/-- After a creating call that answered with `answer`. -/
def Shared.settle (s : Shared) : Option Object → Shared
  | none => s
  | some o => (s.create o).handOver o

theorem createForTenant_alone (env : HookEnv) (real : QpInitAttr → Option Nat)
    (attr : QpInitAttr) (v : View) {live : Finset Object} (returned : Finset Object)
    (hfresh : ∀ a qp, real a = some qp → .qp qp ∉ live) :
    Alone pieceStep (.permitted, ⟨v, live, returned⟩)
      (.idle, Shared.settle ⟨(createForTenant env real attr v).2, live, returned⟩
        ((createForTenant env real attr v).1.qp.map .qp)) := by
  have hfirst : pieceStep (.permitted, ⟨v, live, returned⟩) (.tenantStep env) =
      some (afterTenantStep (tenantStep env v).1, ⟨(tenantStep env v).2, live, returned⟩) := rfl
  unfold createForTenant
  generalize tenantStep env v = tried at hfirst ⊢
  obtain ⟨answer, w⟩ := tried
  cases answer with
  | none => exact .cons hfirst (.refl _)
  | some granted =>
      obtain ⟨tenantOk, tenantId⟩ := granted
      refine .cons hfirst ?_
      unfold createAndSettle
      dsimp only
      generalize clipAttr w.proc.intercept.config attr = clipped
      cases hreal : real clipped with
      | some qp =>
          have hcreate : pieceStep (.ready tenantOk tenantId, ⟨w, live, returned⟩)
              (.createQp (some qp)) =
              some (.created qp, Shared.create ⟨w, live, returned⟩ (.qp qp)) :=
            if_neg (hfresh clipped qp hreal)
          refine .cons hcreate (.cons (a := .countQp) rfl (.cons (a := .readUsage) rfl ?_))
          exact .cons (a := .publish env) rfl (.refl _)
      | none =>
          refine .cons (a := .createQp none) rfl ?_
          cases tenantOk with
          | false => exact .refl _
          | true => exact .cons (a := .rollback) rfl (.refl _)

/-- A creation with interception on, as pieces: both checks, then the rest of
it. -/
theorem creation_alone {extended : Bool} {attr : QpInitAttr} {live : Finset Object}
    {verb : Option (QpInitAttr → Option Nat)} {result : CreateQpResult × View}
    (returned : Finset Object) (henabled : rdmaInterceptIsEnabled v.proc = true)
    (hfresh : ∀ real, verb = some real → ∀ a qp, real a = some qp → .qp qp ∉ live)
    (hcases : CreationOutcome env verb (ownChecks extended attr v && globalCheck v) attr v result) :
    Alone pieceStep (.idle, ⟨v, live, returned⟩)
      (.idle, Shared.settle ⟨result.2, live, returned⟩ (result.1.qp.map .qp)) := by
  cases hcases with
  | missing | refused => exact .refl _
  | passed _ hoff => simp [henabled] at hoff
  | checked hverb _ hcheck =>
      obtain ⟨hown, hglobal⟩ := Bool.and_eq_true_iff.mp hcheck
      refine .cons (a := .checkOwn extended attr) (y := (.checking, ⟨v, live, returned⟩)) ?_
        (.cons (a := .checkGlobal) (y := (.permitted, ⟨v, live, returned⟩)) ?_
          (createForTenant_alone env _ attr v returned (hfresh _ hverb)))
      · simp [pieceStep, hown]
      · simp [pieceStep, hglobal]

/-- **`ibv_create_qp`.** -/
theorem ibvCreateQp_alone (real : QpInitAttr → Option Nat) (attr : QpInitAttr)
    {live : Finset Object} (returned : Finset Object)
    (henabled : rdmaInterceptIsEnabled (hooksInitOnce env v).proc = true)
    (hfresh : ∀ a qp, real a = some qp → .qp qp ∉ live) :
    Alone pieceStep (.idle, ⟨hooksInitOnce env v, live, returned⟩)
      (.idle, Shared.settle ⟨(ibvCreateQp env real attr v).2, live, returned⟩
        ((ibvCreateQp env real attr v).1.qp.map .qp)) := by
  have hcases := ibvCreateQp_cases env real attr v
  rw [checkQpCreationRestrictions_eq] at hcases
  refine creation_alone returned henabled (fun _ hverb => ?_) hcases
  split at hverb
  · cases hverb
    exact hfresh
  · cases hverb

/-- **`create_qp_ex_wrapper`.** -/
theorem createQpExWrapper_alone (real : Nat → QpInitAttr → Option Nat) (context : Nat)
    (attr : QpInitAttr) {live : Finset Object} (returned : Finset Object)
    (henabled : rdmaInterceptIsEnabled v.proc = true)
    (hfresh : ∀ original a qp, real original a = some qp → .qp qp ∉ live) :
    Alone pieceStep (.idle, ⟨v, live, returned⟩)
      (.idle, Shared.settle ⟨(createQpExWrapper env real context attr v).2, live, returned⟩
        ((createQpExWrapper env real context attr v).1.qp.map .qp)) := by
  have hcases := createQpExWrapper_cases env real context attr v
  rw [checkQpCreationRestrictionsExtended_eq] at hcases
  refine creation_alone returned henabled (fun _ hverb => ?_) hcases
  obtain ⟨original, _, rfl⟩ := Option.map_eq_some_iff.mp hverb
  exact hfresh original

/-- **`ibv_destroy_qp`** whose verb succeeds. -/
theorem ibvDestroyQp_alone (live : Finset Object) {returned : Finset Object} {qp : Nat}
    (henabled : rdmaInterceptIsEnabled (hooksInitOnce env v).proc = true)
    (hfound : (hooksInitOnce env v).proc.realVerbs.destroyQp = true) (hmem : .qp qp ∈ returned) :
    Alone pieceStep (.idle, ⟨hooksInitOnce env v, live, returned⟩)
      (.idle, Shared.destroy ⟨(ibvDestroyQp env 0 v).2, live, returned⟩ (.qp qp)) := by
  unfold ibvDestroyQp
  dsimp only
  rw [if_neg (by simp [hfound]), if_neg (by simp [henabled]), if_pos rfl]
  generalize hooksInitOnce env v = w
  have hverb : pieceStep (.idle, ⟨w, live, returned⟩) (.destroyQp qp) =
      some (.destroyed qp, Shared.destroy ⟨w, live, returned⟩ (.qp qp)) := if_pos hmem
  exact .cons hverb (.cons (a := .uncountQp) rfl
    (.cons (a := .tenantUncountQp env) rfl (.refl _)))

/-- **`ibv_reg_mr`.** -/
theorem ibvRegMr_alone (length : UInt64) (real : Option Nat) {live : Finset Object}
    (returned : Finset Object)
    (henabled : rdmaInterceptIsEnabled (hooksInitOnce env v).proc = true)
    (hfound : (hooksInitOnce env v).proc.realVerbs.regMr = true)
    (hfresh : ∀ mr, real = some mr → .mr mr length ∉ live) :
    Alone pieceStep (.idle, ⟨hooksInitOnce env v, live, returned⟩)
      (.idle, Shared.settle ⟨(ibvRegMr env length real v).2, live, returned⟩
        ((ibvRegMr env length real v).1.object.map (Object.mr · length))) := by
  unfold ibvRegMr
  dsimp only
  rw [if_neg (by simp [hfound]), if_neg (by simp [henabled])]
  generalize hooksInitOnce env v = w
  have hfirst : pieceStep (.idle, ⟨w, live, returned⟩) (.checkMr env length) =
      some ((mrChecks env length w).1, ⟨(mrChecks env length w).2, live, returned⟩) := rfl
  refine .cons hfirst ?_
  unfold mrChecks
  dsimp only
  generalize getCurrentTenantId env w = resolved
  split
  · exact .refl _
  · generalize checkMrRateLimit env resolved.2.proc = limited
    obtain ⟨pass, proc⟩ := limited
    cases pass with
    | false => exact .refl _
    | true =>
        cases real with
        | none => exact .cons (a := .regMr none) rfl (.refl _)
        | some mr =>
            have hverb : pieceStep (.mrReady resolved.1 length,
                ⟨{ resolved.2 with proc := proc }, live, returned⟩) (.regMr (some mr)) =
                some (.registered resolved.1 mr length,
                  Shared.create ⟨{ resolved.2 with proc := proc }, live, returned⟩
                    (.mr mr length)) := if_neg (hfresh mr rfl)
            exact .cons hverb (.cons (a := .countMr) rfl
              (.cons (a := .tenantCountMr) rfl (.refl _)))

/-- **`ibv_dereg_mr`** that the rate limiter lets through and whose verb
succeeds. -/
theorem ibvDeregMr_alone {live returned : Finset Object} {mr : Nat} {length : UInt64}
    (henabled : rdmaInterceptIsEnabled (hooksInitOnce env v).proc = true)
    (hfound : (hooksInitOnce env v).proc.realVerbs.deregMr = true)
    (hlimit : (checkMrRateLimit env (hooksInitOnce env v).proc).1 = true)
    (hmem : .mr mr length ∈ returned) :
    Alone pieceStep (.idle, ⟨hooksInitOnce env v, live, returned⟩)
      (.idle, Shared.destroy ⟨(ibvDeregMr env length 0 v).2, live, returned⟩ (.mr mr length)) := by
  unfold ibvDeregMr
  dsimp only
  rw [if_neg (by simp [hfound]), if_neg (by simp [henabled]), if_neg (by simp [hlimit]),
    if_pos rfl]
  generalize hooksInitOnce env v = w at hlimit ⊢
  have hcheck : pieceStep (.idle, ⟨w, live, returned⟩) (.checkDereg env mr length) =
      some (.deregReady mr length,
        ⟨{ w with proc := (checkMrRateLimit env w.proc).2 }, live, returned⟩) := by
    simp [pieceStep, hlimit]
  generalize (checkMrRateLimit env w.proc).2 = proc at hcheck ⊢
  have hverb : pieceStep (.deregReady mr length, ⟨{ w with proc := proc }, live, returned⟩)
      (.deregMr true) = some (.deregistered mr length,
        Shared.destroy ⟨{ w with proc := proc }, live, returned⟩ (.mr mr length)) :=
    if_pos hmem
  exact .cons hcheck (.cons hverb (.cons (a := .uncountMr) rfl
    (.cons (a := .tenantUncountMr env) rfl (.refl _))))

/-! ## What a piece leaves alone -/

/-- What initialization has fixed in a process is the same. -/
structure SameSetup (p q : Process) : Prop where
  config : q.intercept.config = p.intercept.config
  initialized : q.intercept.initialized = p.intercept.initialized
  pid : q.pid = p.pid
  shmMapped : q.shmMapped = p.shmMapped
  hooksInit : q.hooksInit = p.hooksInit
  realVerbs : q.realVerbs = p.realVerbs

/-- So are the counters of the process and the process table. -/
structure SameAccounts (v w : View) : Prop where
  setup : SameSetup v.proc w.proc
  intercept : w.proc.intercept = v.proc.intercept
  shm : w.shm = v.shm

namespace SameSetup

theorem refl (p : Process) : SameSetup p p := ⟨rfl, rfl, rfl, rfl, rfl, rfl⟩

theorem trans {p q r : Process} (h : SameSetup p q) (h' : SameSetup q r) : SameSetup p r where
  config := h'.config.trans h.config
  initialized := h'.initialized.trans h.initialized
  pid := h'.pid.trans h.pid
  shmMapped := h'.shmMapped.trans h.shmMapped
  hooksInit := h'.hooksInit.trans h.hooksInit
  realVerbs := h'.realVerbs.trans h.realVerbs

end SameSetup

namespace SameAccounts

theorem refl (v : View) : SameAccounts v v := ⟨.refl v.proc, rfl, rfl⟩

theorem trans {u w : View} (h : SameAccounts u v) (h' : SameAccounts v w) :
    SameAccounts u w where
  setup := h.setup.trans h'.setup
  intercept := h'.intercept.trans h.intercept
  shm := h'.shm.trans h.shm

theorem getCurrentTenantId (env : HookEnv) (v : View) :
    SameAccounts v (getCurrentTenantId env v).2 := by
  obtain ⟨_, _, _, hview⟩ := getCurrentTenantId_view env v
  rw [hview]
  exact ⟨⟨rfl, rfl, rfl, rfl, rfl, rfl⟩, rfl, rfl⟩

theorem updateTenantResourceCount (tenantId : UInt32) (kind : ResourceKind) (delta : Int32)
    (v : View) : SameAccounts v (updateTenantResourceCount tenantId kind delta v) := by
  unfold RdmaHooks.updateTenantResourceCount
  split <;> exact ⟨⟨rfl, rfl, rfl, rfl, rfl, rfl⟩, rfl, rfl⟩

theorem latchMandatory (env : HookEnv) (v : View) :
    SameAccounts v (latchMandatory env v).2 := by
  unfold RdmaHooks.latchMandatory
  split <;> exact ⟨⟨rfl, rfl, rfl, rfl, rfl, rfl⟩, rfl, rfl⟩

theorem mandatoryRebind (env : HookEnv) (tenantId : UInt32) (v : View) :
    SameAccounts v (mandatoryRebind env tenantId v).2 := by
  unfold RdmaHooks.mandatoryRebind
  split
  · split
    · exact refl v
    · simp only
      split
      · split <;> exact ⟨⟨rfl, rfl, rfl, rfl, rfl, rfl⟩, rfl, rfl⟩
      · exact refl v
  · exact refl v

theorem checkTenantQpLimit (env : HookEnv) (tenantId : UInt32) (v : View) :
    SameAccounts v (checkTenantQpLimit env tenantId v).2 := by
  have hlatch := latchMandatory env v
  have hrebound : SameAccounts v (if (RdmaHooks.latchMandatory env v).1 then
      RdmaHooks.mandatoryRebind env tenantId (RdmaHooks.latchMandatory env v).2
      else (tenantId, (RdmaHooks.latchMandatory env v).2)).2 := by
    split
    · exact hlatch.trans (mandatoryRebind env tenantId _)
    · exact hlatch
  unfold RdmaHooks.checkTenantQpLimit
  simp only
  generalize (if (RdmaHooks.latchMandatory env v).1 = true then _ else _ : UInt32 × View) =
    rebound at hrebound ⊢
  split
  · exact hrebound
  · split
    · exact hrebound
    · exact ⟨hrebound.setup.trans ⟨rfl, rfl, rfl, rfl, rfl, rfl⟩, hrebound.intercept, hrebound.shm⟩

theorem tenantStep (env : HookEnv) (v : View) : SameAccounts v (tenantStep env v).2 := by
  have hresolved := getCurrentTenantId env v
  unfold RdmaHooks.tenantStep
  simp only
  split
  · exact hresolved.trans (checkTenantQpLimit env _ _)
  · exact hresolved

theorem checkMrRateLimit (env : HookEnv) (v : View) :
    SameAccounts v { v with proc := (checkMrRateLimit env v.proc).2 } := by
  obtain ⟨start, count, hview⟩ := checkMrRateLimit_view env v.proc
  rw [hview]
  exact ⟨⟨rfl, rfl, rfl, rfl, rfl, rfl⟩, rfl, rfl⟩

theorem mrChecks (env : HookEnv) (length : UInt64) (v : View) :
    SameAccounts v (mrChecks env length v).2 := by
  have hresolved := getCurrentTenantId env v
  unfold HookPieces.mrChecks
  simp only
  split
  · exact hresolved
  · exact hresolved.trans (checkMrRateLimit env _)

theorem tenantUncount (env : HookEnv) (kind : ResourceKind) (v : View) :
    SameAccounts v (tenantUncount env kind v) :=
  (getCurrentTenantId env v).trans (updateTenantResourceCount _ kind (-1) _)

end SameAccounts

/-! ## What a piece can do -/

/-- The part of a position that the accounts depend on: the QP creation is
under way without an object, or an object is not counted yet, is counted but
not returned, or is destroyed but still counted. -/
inductive Stage where
  | out
  | checking
  | permitted
  | uncounted (o : Object)
  | counted (o : Object)
  | owed (o : Object)
  deriving DecidableEq

def Pc.stage : Pc → Stage
  | .checking => .checking
  | .permitted => .permitted
  | .ready _ _ => .permitted
  | .created qp => .uncounted (.qp qp)
  | .counted qp => .counted (.qp qp)
  | .publishing qp _ => .counted (.qp qp)
  | .destroyed qp => .owed (.qp qp)
  | .registered _ mr length => .uncounted (.mr mr length)
  | .mrCounted _ mr length => .counted (.mr mr length)
  | .deregistered mr length => .owed (.mr mr length)
  | _ => .out

/-- The effects of a piece.  A `quiet` one changes nothing that is accounted
for, and at most gives up a QP creation. -/
inductive Moved : Pc → Shared → Action → Pc → Shared → Prop
  | quiet {k k' : Pc} {s : Shared} {v : View} {a : Action} (hview : SameAccounts s.view v)
      (hbefore : k.stage = .out ∨ k.stage = .checking ∨ k.stage = .permitted)
      (hafter : k'.stage = .out ∨ k.stage = .permitted ∧ k'.stage = .permitted) :
      Moved k s a k' { s with view := v }
  | checkOwn {s : Shared} {extended : Bool} {attr : QpInitAttr}
      (h : ownChecks extended attr s.view = true) :
      Moved .idle s (.checkOwn extended attr) .checking s
  | checkGlobal {s : Shared} (h : globalCheck s.view = true) :
      Moved .checking s .checkGlobal .permitted s
  | createQp {s : Shared} {tenantOk : Bool} {tenantId : UInt32} {qp : Nat}
      (hfresh : .qp qp ∉ s.live) :
      Moved (.ready tenantOk tenantId) s (.createQp (some qp)) (.created qp) (s.create (.qp qp))
  | countQp {s : Shared} {qp : Nat} :
      Moved (.created qp) s .countQp (.counted qp)
        { s with view := { s.view with proc := countOwnQp s.view.proc } }
  | readUsage {s : Shared} {qp : Nat} :
      Moved (.counted qp) s .readUsage (.publishing qp (ownUsage s.view.proc)) s
  | publish {s : Shared} {env : HookEnv} {qp : Nat} {usage : ResourceUsage} :
      Moved (.publishing qp usage) s (.publish env) .idle
        ({ s with view := publishUsage env usage s.view }.handOver (.qp qp))
  | destroyQp {s : Shared} {qp : Nat} (h : .qp qp ∈ s.returned) :
      Moved .idle s (.destroyQp qp) (.destroyed qp) (s.destroy (.qp qp))
  | uncountQp {s : Shared} {qp : Nat} :
      Moved (.destroyed qp) s .uncountQp .uncounted
        { s with view := { s.view with proc := uncountOwnQp s.view.proc } }
  | regMr {s : Shared} {tenantId : UInt32} {mr : Nat} {length : UInt64}
      (hfresh : .mr mr length ∉ s.live) :
      Moved (.mrReady tenantId length) s (.regMr (some mr)) (.registered tenantId mr length)
        (s.create (.mr mr length))
  | countMr {s : Shared} {tenantId : UInt32} {mr : Nat} {length : UInt64} :
      Moved (.registered tenantId mr length) s .countMr (.mrCounted tenantId mr length)
        { s with view := { s.view with proc := countOwnMr length s.view.proc } }
  | returnMr {s : Shared} {v : View} {tenantId : UInt32} {mr : Nat} {length : UInt64}
      (hview : SameAccounts s.view v) :
      Moved (.mrCounted tenantId mr length) s .tenantCountMr .idle
        ({ s with view := v }.handOver (.mr mr length))
  | deregMr {s : Shared} {mr : Nat} {length : UInt64} (h : .mr mr length ∈ s.returned) :
      Moved (.deregReady mr length) s (.deregMr true) (.deregistered mr length)
        (s.destroy (.mr mr length))
  | uncountMr {s : Shared} {mr : Nat} {length : UInt64} :
      Moved (.deregistered mr length) s .uncountMr .mrUncounted
        { s with view := { s.view with proc := uncountOwnMr length s.view.proc } }

/-- The checks of a registration leave the thread outside the QP hooks. -/
theorem mrChecks_stage (env : HookEnv) (length : UInt64) (v : View) :
    (mrChecks env length v).1.stage = .out := by
  unfold mrChecks
  dsimp only
  split
  · rfl
  · split
    · rfl
    · rfl

/-- **Every piece has one of these effects.** -/
theorem moved_of_step {x y : Pc × Shared} {a : Action} (h : pieceStep x a = some y) :
    Moved x.1 x.2 a y.1 y.2 := by
  -- one case per line of `pieceStep`, in its order
  unfold pieceStep at h
  split at h
  · obtain rfl := Option.some.inj h
    dsimp only
    split
    · rename_i hpass
      exact .checkOwn hpass
    · exact .quiet (.refl _) (.inl rfl) (.inl rfl)
  · obtain rfl := Option.some.inj h
    dsimp only
    split
    · rename_i hpass
      exact .checkGlobal hpass
    · exact .quiet (.refl _) (.inr (.inl rfl)) (.inl rfl)
  · rename_i s env
    obtain rfl := Option.some.inj h
    have hview := SameAccounts.tenantStep env s.view
    generalize tenantStep env s.view = tried at hview ⊢
    obtain ⟨answer, v⟩ := tried
    cases answer with
    | none => exact .quiet hview (.inr (.inr rfl)) (.inl rfl)
    | some _ => exact .quiet hview (.inr (.inr rfl)) (.inr ⟨rfl, rfl⟩)
  · rename_i tenantOk tenantId s
    obtain rfl := Option.some.inj h
    cases tenantOk with
    | false | true => exact .quiet (.refl _) (.inr (.inr rfl)) (.inl rfl)
  · split at h
    · cases h
    · rename_i hfresh
      obtain rfl := Option.some.inj h
      exact .createQp hfresh
  · obtain rfl := Option.some.inj h
    exact .quiet ⟨.refl _, rfl, rfl⟩ (.inl rfl) (.inl rfl)
  · obtain rfl := Option.some.inj h
    exact .countQp
  · obtain rfl := Option.some.inj h
    exact .readUsage
  · obtain rfl := Option.some.inj h
    exact .publish
  · split at h
    · rename_i hmem
      obtain rfl := Option.some.inj h
      exact .destroyQp hmem
    · cases h
  · obtain rfl := Option.some.inj h
    exact .uncountQp
  · obtain rfl := Option.some.inj h
    exact .quiet (SameAccounts.tenantUncount _ _ _) (.inl rfl) (.inl rfl)
  · rename_i s env length
    obtain rfl := Option.some.inj h
    exact .quiet (SameAccounts.mrChecks env length s.view) (.inl rfl)
      (.inl (mrChecks_stage env length s.view))
  · obtain rfl := Option.some.inj h
    exact .quiet (.refl _) (.inl rfl) (.inl rfl)
  · split at h
    · cases h
    · rename_i hfresh
      obtain rfl := Option.some.inj h
      exact .regMr hfresh
  · obtain rfl := Option.some.inj h
    exact .countMr
  · obtain rfl := Option.some.inj h
    exact .returnMr (SameAccounts.updateTenantResourceCount _ _ _ _)
  · rename_i s env mr length
    obtain rfl := Option.some.inj h
    have hview := SameAccounts.checkMrRateLimit env s.view
    dsimp only
    split
    · exact .quiet hview (.inl rfl) (.inl rfl)
    · exact .quiet hview (.inl rfl) (.inl rfl)
  · obtain rfl := Option.some.inj h
    exact .quiet (.refl _) (.inl rfl) (.inl rfl)
  · split at h
    · rename_i hmem
      obtain rfl := Option.some.inj h
      exact .deregMr hmem
    · cases h
  · obtain rfl := Option.some.inj h
    exact .uncountMr
  · obtain rfl := Option.some.inj h
    exact .quiet (SameAccounts.tenantUncount _ _ _) (.inl rfl) (.inl rfl)
  · cases h

theorem publishUsage_proc (env : HookEnv) (usage : ResourceUsage) (v : View) :
    (publishUsage env usage v).proc = v.proc := by
  unfold publishUsage
  split <;> rfl

/-- No piece touches what initialization has fixed. -/
theorem Moved.setup {k k' : Pc} {s s' : Shared} {a : Action} (h : Moved k s a k' s') :
    SameSetup s.view.proc s'.view.proc := by
  cases h with
  | quiet hview _ _ => exact hview.setup
  | checkOwn | checkGlobal | createQp => exact .refl _
  | countQp => exact ⟨rfl, rfl, rfl, rfl, rfl, rfl⟩
  | readUsage => exact .refl _
  | publish =>
      show SameSetup s.view.proc (publishUsage _ _ s.view).proc
      rw [publishUsage_proc]
      exact .refl _
  | destroyQp _ => exact .refl _
  | uncountQp => exact ⟨rfl, rfl, rfl, rfl, rfl, rfl⟩
  | regMr _ => exact .refl _
  | countMr => exact ⟨rfl, rfl, rfl, rfl, rfl, rfl⟩
  | returnMr hview => exact hview.setup
  | deregMr _ => exact .refl _
  | uncountMr => exact ⟨rfl, rfl, rfl, rfl, rfl, rfl⟩

end MtRdma.Ports.HookPieces
