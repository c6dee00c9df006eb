import MtRdma.Ports.TenantListings
import MtRdma.Ports.TenantManager

/-!
# Sessions with the tenant manager

The manager daemon takes one message after the other.  Between two messages
the hooks and the collector work on the same segment: they bind processes,
write usage records and take queue pairs from the quotas.

A client should not notice them.  What the manager keeps for its clients is a
registry: by number, the name and the three limits of each tenant.  Every
answer is the answer of such a registry that is sent the same messages and
nothing else (`manager_refines_registry`), so that `STATUS` shows the limits
of the last command that was accepted for the tenant
(`status_shows_last_accepted`).

The answers to `LIST_TENANTS` and to `STATUS` without a number carry the rows of
`TenantListings`; of them the success flag and the message are kept here.
-/

namespace MtRdma.Ports.TenantManager

open Verified.CText
open Verified.CLines
open Verified.Runs
open SharedMemoryTenant
open TenantListings (StatusRow)

variable {json : JsonC} {s s' : TenantSharedMemory}

/-! ## Answers with their data -/

/-- The data of the answer to `STATUS` of one tenant: a row of the listing, and
two totals. -/
structure StatusData extends StatusRow where
  totalQpCreates : Int64
  totalMrRegs : Int64

/-- The object that `handle_status` fills from the copy of the record. -/
def statusData (info : TenantInfo) : StatusData where
  id := info.tenantId.toInt32
  name := info.tenantName
  status := info.status
  qpUsed := info.usage.qpCount
  qpLimit := info.quota.maxQpPerTenant.toInt32
  mrUsed := info.usage.mrCount
  mrLimit := info.quota.maxMrPerTenant.toInt32
  memoryUsed := info.usage.memoryUsed.toInt64
  memoryLimit := info.quota.maxMemoryPerTenant.toInt64
  totalQpCreates := info.usage.totalQpCreates.toInt64
  totalMrRegs := info.usage.totalMrRegs.toInt64

/-- The data that `handle_status` adds to its answer. -/
def handleStatusData (json : JsonC) (o : json.Obj) (s : TenantSharedMemory) : Option StatusData :=
  match json.intField o "tenant" with
  | none => none
  | some tenant => (tenantGetInfo tenant.toUInt32 s).map statusData

/-- The data that `process_command` adds to its answer. -/
def processData (json : JsonC) (text : List Char) (s : TenantSharedMemory) : Option StatusData :=
  match json.tokenerParse text with
  | none => none
  | some o =>
      match json.stringField o "cmd" with
      | some (some cmd) => if cmd = "STATUS".toList then handleStatusData json o s else none
      | _ => none

/-- The data in the answer to a command. -/
def Command.data (s : TenantSharedMemory) : Command → Option StatusData
  | .status tenantId => (tenantGetInfo tenantId s).map statusData
  | _ => none

/-- Only the answer to `STATUS` carries a record. -/
theorem data_understandObject (json : JsonC) (cmd : List Char) (o : json.Obj)
    (s : TenantSharedMemory) :
    (understandObject json cmd o).bind (·.data s) =
      if cmd = "STATUS".toList then handleStatusData json o s else none := by
  by_cases hstatus : cmd = "STATUS".toList
  · subst hstatus
    rw [if_pos rfl]
    unfold understandObject handleStatusData
    rw [if_neg (by decide), if_neg (by decide), if_neg (by decide), if_pos rfl]
    cases json.intField o "tenant" <;> rfl
  · rw [if_neg hstatus]
    unfold understandObject
    rw [if_neg hstatus]
    cases json.intField o "tenant" <;> cases json.intField o "qp" <;> cases nameField json o <;>
      dsimp only <;> split_ifs <;> rfl

theorem processData_understood (json : JsonC) (text : List Char) (s : TenantSharedMemory) :
    processData json text s = (understand json text).bind (·.data s) := by
  unfold processData understand
  cases json.tokenerParse text with
  | none => rfl
  | some o =>
      dsimp only
      cases json.stringField o "cmd" with
      | none => rfl
      | some cmdType =>
          cases cmdType with
          | none => rfl
          | some cmd => exact (data_understandObject json cmd o s).symm

/-! ## The registry -/

/-- What the manager keeps of a tenant, in the types in which it is shown. -/
structure Entry where
  id : Int32
  name : List UInt8
  status : TenantStatus
  qp : Int32
  mr : Int32
  memory : Int64
  deriving DecidableEq

/-- A registry of tenants by number. -/
abbrev Registry := UInt32 → Option Entry

/-- An answer, with what it shows of the registry. -/
structure Shown where
  response : Response
  entry : Option Entry
  deriving DecidableEq

def refusal (message : List Char) : Shown := ⟨⟨false, message⟩, none⟩

def done (message : List Char) : Shown := ⟨⟨true, message⟩, none⟩

/-- The registry serves a command. -/
def Registry.serve (r : Registry) : Command → Shown × Registry
  | .create tenantId name qp mr memory =>
      if tenantId = 0 ∨ maxTenants ≤ tenantId.toNat ∨ r tenantId ≠ none then
        (refusal "Failed to create tenant".toList, r)
      else
        (done ("Tenant ".toList ++ decimal tenantId.toNat ++ " created".toList),
          Function.update r tenantId (some {
            id := tenantId.toInt32
            name := (bytes name).take (tenantNameMax - 1)
            status := .active
            qp := qp
            mr := mr
            memory := memory.toInt64 }))
  | .update tenantId qp mr memory =>
      match r tenantId with
      | none => (refusal "Failed to update quota".toList, r)
      | some entry =>
          (done ("Quota updated for tenant ".toList ++ decimal tenantId.toNat),
            Function.update r tenantId
              (some { entry with qp := qp, mr := mr, memory := memory.toInt64 }))
  | .delete tenantId =>
      if tenantId = 0 ∨ r tenantId = none then (refusal "Failed to delete tenant".toList, r)
      else
        (done ("Tenant ".toList ++ decimal tenantId.toNat ++ " deleted".toList),
          Function.update r tenantId none)
  | .status tenantId =>
      match r tenantId with
      | none => (refusal "Tenant not found".toList, r)
      | some entry => (⟨⟨true, "Tenant status".toList⟩, some entry⟩, r)
  | .statusAll => (done "All tenants status".toList, r)
  | .list => (done "Tenant list".toList, r)
  | .invalid message => (refusal message, r)

/-- One command and its answer. -/
def RegistryStep (r : Registry) (exchange : Command × Shown) (r' : Registry) : Prop :=
  r.serve exchange.1 = (exchange.2, r')

/-- What a record shows. -/
def StatusData.entry (d : StatusData) : Entry :=
  ⟨d.id, d.name, d.status, d.qpLimit, d.mrLimit, d.memoryLimit⟩

/-- The registry in the store: what `STATUS` would show. -/
def registry (s : TenantSharedMemory) : Registry :=
  fun tenantId => (tenantGetInfo tenantId s).map fun info => (statusData info).entry

/-! ### What writes to the store do to it -/

section Registry

variable {tenantId : UInt32} {t : TenantIdx} {s s' : TenantSharedMemory}

theorem registry_none (ht : tenantIdx? tenantId = none) : registry s tenantId = none := by
  simp [registry, tenantGetInfo, ht]

theorem registry_some (ht : tenantIdx? tenantId = some t) :
    registry s tenantId = if (s.tenants t).status ≠ .inactive then
      some (statusData (s.tenants t)).entry else none := by
  simp only [registry, tenantGetInfo, ht]
  split <;> rfl

theorem registry_of_tenants (h : s'.tenants = s.tenants) : registry s' = registry s := by
  funext u
  cases hu : tenantIdx? u with
  | none => rw [registry_none hu, registry_none hu]
  | some t => rw [registry_some hu, registry_some hu, h]

/-- Writing one record writes one entry. -/
theorem registry_write {info : TenantInfo} (h : s'.tenants = Function.update s.tenants t info)
    (ht : tenantIdx? tenantId = some t) :
    registry s' = Function.update (registry s) tenantId
      (if info.status ≠ .inactive then some (statusData info).entry else none) := by
  funext u
  by_cases hu : u = tenantId
  · rw [hu, Function.update_self, registry_some ht, h, Function.update_self]
  · rw [Function.update_of_ne hu]
    cases hidx : tenantIdx? u with
    | none => rw [registry_none hidx, registry_none hidx]
    | some v =>
        have hv : v ≠ t := by
          rintro rfl
          exact hu (tenantIdx?_inj hidx ht)
        rw [registry_some hidx, registry_some hidx, h, Function.update_of_ne hv]

/-- A record is written that shows what the old one showed. -/
theorem registry_same {info : TenantInfo} (h : s'.tenants = Function.update s.tenants t info)
    (hsame : (statusData info).entry = (statusData (s.tenants t)).entry) :
    registry s' = registry s := by
  have hstatus : info.status = (s.tenants t).status := congrArg Entry.status hsame
  funext u
  cases hidx : tenantIdx? u with
  | none => rw [registry_none hidx, registry_none hidx]
  | some v =>
      rw [registry_some hidx, registry_some hidx, h]
      by_cases hv : v = t
      · rw [hv, Function.update_self, hstatus, hsame]
      · rw [Function.update_of_ne hv]

theorem registry_none_iff (ht : tenantIdx? tenantId = some t) :
    registry s tenantId = none ↔ (s.tenants t).status = .inactive := by
  rw [registry_some ht]
  simp

end Registry

/-! ## Each command is served -/

/-- The answer to a command as a client of the registry sees it. -/
def Command.shown (s : TenantSharedMemory) (c : Command) : Shown :=
  ⟨(c.run s).1, (c.data s).map StatusData.entry⟩

theorem maxTenants_le_iff (tenantId : UInt32) :
    maxTenants ≤ tenantId.toNat ↔ tenantIdx? tenantId = none := by
  unfold tenantIdx?
  split <;> simp <;> omega

/-- The entry of a new record. -/
theorem entry_freshTenant (tenantId : UInt32) (name : List Char) (qp mr : Int32)
    (memory : UInt64) :
    (statusData (freshTenant tenantId (some (bytes name))
      (some (managerQuota qp mr memory)))).entry =
      ⟨tenantId.toInt32, (bytes name).take (tenantNameMax - 1), .active, qp, mr,
        memory.toInt64⟩ := by
  simp [statusData, StatusData.entry, freshTenant, managerQuota]

variable {s : TenantSharedMemory}

theorem serve_create (tenantId : UInt32) (name : List Char) (qp mr : Int32) (memory : UInt64) :
    (registry s).serve (.create tenantId name qp mr memory) =
      ((Command.create tenantId name qp mr memory).shown s,
        registry ((Command.create tenantId name qp mr memory).run s).2) := by
  simp only [Registry.serve, Command.shown, Command.run, Command.data, maxTenants_le_iff]
  by_cases hzero : tenantId = 0
  · simp [tenantCreate, answer, hzero, refusal]
  cases ht : tenantIdx? tenantId with
  | none => simp [tenantCreate, answer, hzero, ht, refusal]
  | some t =>
      by_cases hst : (s.tenants t).status = .inactive
      · rw [tenantCreate_inactive hzero ht hst]
        have hfree : registry s tenantId = none := (registry_none_iff ht).mpr hst
        have hwritten : registry { setTenant t (freshTenant tenantId (some (bytes name))
            (some (managerQuota qp mr memory))) s with
              activeTenantCount := s.activeTenantCount + 1 } =
            Function.update (registry s) tenantId
              (some ⟨tenantId.toInt32, (bytes name).take (tenantNameMax - 1), .active, qp, mr,
                memory.toInt64⟩) := by
          rw [registry_write rfl ht, entry_freshTenant, if_pos (freshTenant_status_ne _ _ _)]
        simp [answer, hwritten, hfree, hzero, done]
      · have htaken : registry s tenantId ≠ none := mt (registry_none_iff ht).mp hst
        simp [tenantCreate, answer, hzero, ht, hst, htaken, refusal]

theorem serve_update (tenantId : UInt32) (qp mr : Int32) (memory : UInt64) :
    (registry s).serve (.update tenantId qp mr memory) =
      ((Command.update tenantId qp mr memory).shown s,
        registry ((Command.update tenantId qp mr memory).run s).2) := by
  simp only [Registry.serve, Command.shown, Command.run, Command.data]
  cases ht : tenantIdx? tenantId with
  | none =>
      rw [registry_none ht]
      simp [tenantUpdateQuota, ht, answer, refusal]
  | some t =>
      by_cases hst : (s.tenants t).status = .inactive
      · rw [(registry_none_iff ht).mpr hst]
        simp [tenantUpdateQuota, ht, hst, answer, refusal]
      · have hentry : registry s tenantId = some (statusData (s.tenants t)).entry := by
          rw [registry_some ht, if_pos hst]
        have hwritten : registry (setTenant t
            { s.tenants t with quota := managerQuota qp mr memory } s) =
            Function.update (registry s) tenantId (some { (statusData (s.tenants t)).entry with
              qp := qp, mr := mr, memory := memory.toInt64 }) := by
          rw [registry_write rfl ht, if_pos hst]
          simp [statusData, StatusData.entry, managerQuota]
        simp [tenantUpdateQuota, ht, hst, answer, hentry, hwritten, done]

theorem serve_delete (tenantId : UInt32) :
    (registry s).serve (.delete tenantId) =
      ((Command.delete tenantId).shown s, registry ((Command.delete tenantId).run s).2) := by
  simp only [Registry.serve, Command.shown, Command.run, Command.data]
  by_cases hzero : tenantId = 0
  · simp [tenantDelete, answer, hzero, refusal]
  cases ht : tenantIdx? tenantId with
  | none => simp [tenantDelete, answer, hzero, ht, registry_none ht, refusal]
  | some t =>
      by_cases hst : (s.tenants t).status = .inactive
      · simp [tenantDelete, answer, hzero, ht, hst, (registry_none_iff ht).mpr hst, refusal]
      · have hlisted : registry s tenantId ≠ none := mt (registry_none_iff ht).mp hst
        have hswept : registry (sweepMappings tenantId s) = registry s :=
          registry_of_tenants (sweepMappings_tenants tenantId s)
        have hretired : registry (retireTenant t (sweepMappings tenantId s)) =
            Function.update (registry s) tenantId none := by
          rw [registry_write rfl ht, hswept]
          rfl
        simp [tenantDelete, answer, hzero, ht, hst, hlisted, hretired, done]

theorem serve_status (tenantId : UInt32) :
    (registry s).serve (.status tenantId) =
      ((Command.status tenantId).shown s, registry ((Command.status tenantId).run s).2) := by
  simp only [Registry.serve, Command.shown, Command.run, Command.data]
  cases hinfo : tenantGetInfo tenantId s with
  | none =>
      have hnone : registry s tenantId = none := by simp [registry, hinfo]
      simp [hnone, refusal]
  | some info =>
      have hsome : registry s tenantId = some (statusData info).entry := by simp [registry, hinfo]
      simp [hsome]

/-- The registry in the store serves every command as the daemon does. -/
theorem serve_run (c : Command) :
    (registry s).serve c = (c.shown s, registry (c.run s).2) := by
  cases c with
  | create tenantId name qp mr memory => exact serve_create tenantId name qp mr memory
  | update tenantId qp mr memory => exact serve_update tenantId qp mr memory
  | delete tenantId => exact serve_delete tenantId
  | status tenantId => exact serve_status tenantId
  | statusAll | list | invalid => rfl

/-! ## Other processes -/

/-- The calls of the hooks and of the collector. -/
def OfProcess : StoreCall → Prop
  | .updateResourceUsage .. | .getResourceUsage .. | .checkResourceLimit .. | .tryAllocateQp ..
  | .bindProcess .. | .unbindProcess .. => True
  | _ => False

theorem registry_bind (pid : Int) (tenantId : UInt32) :
    registry (tenantBindProcess pid tenantId s).2 = registry s := by
  have hout := tenantBindProcess_outcome pid tenantId s
  generalize tenantBindProcess pid tenantId s = r at hout
  cases hout with
  | refused _ => rfl
  | rebound _ _ => exact registry_of_tenants rfl
  | added _ _ _ _ => exact registry_same rfl rfl
  | full _ _ _ => rfl

theorem registry_unbind (pid : Int) : registry (tenantUnbindProcess pid s).2 = registry s := by
  rcases tenantUnbindProcess_cases pid s with ⟨_, hu⟩ | ⟨i, _, hu⟩
  · rw [hu]
  · rw [hu]
    have hreleased : registry (releaseFromTenant pid i s) = registry s := by
      unfold releaseFromTenant
      split
      · exact registry_same rfl rfl
      · rfl
    exact (registry_of_tenants rfl).trans hreleased

theorem registry_updateResourceUsage (tenantId : UInt32) (usage : TenantResourceUsage) :
    registry (tenantUpdateResourceUsage tenantId usage s).2 = registry s := by
  unfold tenantUpdateResourceUsage
  split
  · rfl
  · split
    · rfl
    · exact registry_same rfl rfl

theorem registry_tryAllocateQp (tenantId : UInt32) :
    registry (tenantTryAllocateQp tenantId s).2 = registry s := by
  unfold tenantTryAllocateQp
  split
  · rfl
  · split
    · rfl
    · dsimp only
      split
      · exact registry_same rfl rfl
      · exact registry_same rfl rfl

/-- No call of a hook or of the collector shows in the registry. -/
theorem registry_call {call : StoreCall} (hcall : OfProcess call) :
    registry (storeCall s call).2 = registry s := by
  cases call with
  | bindProcess pid tenantId => exact registry_bind pid tenantId
  | unbindProcess pid => exact registry_unbind pid
  | updateResourceUsage tenantId usage =>
      cases usage with
      | none => rfl
      | some usage => exact registry_updateResourceUsage tenantId usage
  | tryAllocateQp tenantId => exact registry_tryAllocateQp tenantId
  | getResourceUsage | checkResourceLimit => rfl
  | create | delete | setStatus | updateQuota => exact hcall.elim

/-! ## Sessions -/

/-- An answer as it is sent. -/
structure Reply where
  response : Response
  data : Option StatusData

/-- What happens on the segment: a message and its answer, or a call of another
process. -/
inductive SessionEvent where
  | message (text : List Char) (reply : Reply)
  | call (call : StoreCall) (answer : StoreAnswer)

/-- A message step is one whose behaviour is defined. -/
inductive SessionStep (json : JsonC) :
    TenantSharedMemory → SessionEvent → TenantSharedMemory → Prop
  | message {s : TenantSharedMemory} {text : List Char} {answered : Response × TenantSharedMemory} :
      processCommand json text s = some answered →
      SessionStep json s (.message text ⟨answered.1, processData json text s⟩) answered.2
  | call {s : TenantSharedMemory} (call : StoreCall) : OfProcess call →
      SessionStep json s (.call call (storeCall s call).1) (storeCall s call).2

/-- What clients see of an event. -/
def shownOf (json : JsonC) : SessionEvent → Option (Command × Shown)
  | .message text reply => (understand json text).map fun c =>
      (c, ⟨reply.response, reply.data.map StatusData.entry⟩)
  | .call _ _ => none

/-- A message that is answered asks for something, and is answered with it. -/
theorem understood_of_answered {text : List Char} {answered : Response × TenantSharedMemory}
    (h : processCommand json text s = some answered) :
    ∃ c, understand json text = some c ∧ c.run s = answered ∧
      processData json text s = c.data s := by
  rw [process_understood] at h
  obtain ⟨c, hc, hrun⟩ := Option.map_eq_some_iff.mp h
  exact ⟨c, hc, hrun, by rw [processData_understood, hc]; rfl⟩

theorem SessionStep.registryStep {e : SessionEvent} {exchange : Command × Shown}
    (hstep : SessionStep json s e s') (hshown : shownOf json e = some exchange) :
    RegistryStep (registry s) exchange (registry s') := by
  cases hstep with
  | message hanswered =>
      obtain ⟨c, hc, rfl, hdata⟩ := understood_of_answered hanswered
      rw [shownOf, hc, Option.map_some, hdata] at hshown
      obtain rfl := Option.some.inj hshown
      exact serve_run c
  | call call hcall => cases hshown

theorem SessionStep.silent {e : SessionEvent} (hstep : SessionStep json s e s')
    (hshown : shownOf json e = none) :
    registry s' = registry s := by
  cases hstep with
  | message hanswered =>
      obtain ⟨c, hc, -, -⟩ := understood_of_answered hanswered
      rw [shownOf, hc] at hshown
      cases hshown
  | call call hcall => exact registry_call hcall

theorem registry_zeroed : registry zeroed = fun _ => none := by
  funext tenantId
  cases ht : tenantIdx? tenantId with
  | none => exact registry_none ht
  | some t => exact (registry_none_iff ht).mpr rfl

/-- Whatever the hooks and the collector do between the messages, the answers of
the daemon are those of a registry that is sent the messages alone, and
`STATUS` shows its entries. -/
theorem manager_refines_registry {json : JsonC} {events : List SessionEvent}
    {s : TenantSharedMemory} (hrun : Run (SessionStep json) zeroed events s) :
    Run RegistryStep (fun _ => none) (events.filterMap (shownOf json)) (registry s) := by
  rw [← registry_zeroed]
  exact hrun.refines (fun _ _ _ _ => SessionStep.registryStep) (fun _ _ _ => SessionStep.silent)

/-- A message that is understood can be sent at any time. -/
theorem SessionStep.of_understood {text : List Char} {c : Command}
    (h : understand json text = some c) (s : TenantSharedMemory) :
    SessionStep json s (.message text ⟨(c.run s).1, c.data s⟩) (c.run s).2 := by
  have hanswered : processCommand json text s = some (c.run s) := by
    rw [process_understood, h]
    rfl
  have hdata : processData json text s = c.data s := by
    rw [processData_understood, h]
    rfl
  rw [← hdata]
  exact .message hanswered

/-- The message of `create 1 10 50`. -/
def createMessage : List Char := createText "10".toList

/-- The message of `update 1 20 60`. -/
def updateMessage : List Char :=
  "\x7b \"cmd\": \"UPDATE_QUOTA\", \"tenant\": 1, \"qp\": 20, \"mr\": 60, ".toList ++
    "\"memory\": 1073741824 \x7d".toList

/-- The message of `status 1`. -/
def statusMessage : List Char := "\x7b \"cmd\": \"STATUS\", \"tenant\": 1 \x7d".toList

def createCommand : Command := .create 1 "unnamed".toList 10 50 1073741824

def updateCommand : Command := .update 1 20 60 1073741824

theorem understand_createMessage : understand flatJson createMessage = some createCommand := by
  decide +kernel

theorem understand_updateMessage : understand flatJson updateMessage = some updateCommand := by
  decide +kernel

theorem understand_statusMessage : understand flatJson statusMessage = some (.status 1) := by
  decide +kernel

/-- Tenant 1 with the limits that it was created with. -/
def afterCreate : TenantSharedMemory := (createCommand.run zeroed).2

/-- Process 100 is bound to it. -/
def afterBind : TenantSharedMemory := (storeCall afterCreate (.bindProcess 100 1)).2

/-- Its limits are raised. -/
def afterUpdate : TenantSharedMemory := (updateCommand.run afterBind).2

/-- One of its queue pairs is taken. -/
def afterAllocate : TenantSharedMemory := (storeCall afterUpdate (.tryAllocateQp 1)).2

/-- Three messages, with a call of a process before the second and the third. -/
def busySession : List SessionEvent :=
  [.message createMessage ⟨(createCommand.run zeroed).1, none⟩,
    .call (.bindProcess 100 1) (storeCall afterCreate (.bindProcess 100 1)).1,
    .message updateMessage ⟨(updateCommand.run afterBind).1, none⟩,
    .call (.tryAllocateQp 1) (storeCall afterUpdate (.tryAllocateQp 1)).1,
    .message statusMessage
      ⟨((Command.status 1).run afterAllocate).1, (Command.status 1).data afterAllocate⟩]

theorem busySession_run : Run (SessionStep flatJson) zeroed busySession afterAllocate := by
  have hcreate := Run.snoc .start (SessionStep.of_understood understand_createMessage zeroed)
  have hbind := hcreate.snoc (.call (s := afterCreate) (.bindProcess 100 1) trivial)
  have hupdate := hbind.snoc (SessionStep.of_understood understand_updateMessage afterBind)
  have hallocate := hupdate.snoc (.call (s := afterUpdate) (.tryAllocateQp 1) trivial)
  exact hallocate.snoc (SessionStep.of_understood understand_statusMessage afterAllocate)

/-- What the clients see of it: the two calls are invisible, and `STATUS` shows the
limits of the update. -/
theorem manager_refines_registry_busy :
    busySession.filterMap (shownOf flatJson) =
      [(createCommand, done "Tenant 1 created".toList),
        (updateCommand, done "Quota updated for tenant 1".toList),
        (.status 1, ⟨⟨true, "Tenant status".toList⟩,
          some ⟨1, bytes "unnamed".toList, .active, 20, 60, 1073741824⟩⟩)] ∧
      Run RegistryStep (fun _ => none) (busySession.filterMap (shownOf flatJson))
        (registry afterAllocate) := by
  refine ⟨?_, manager_refines_registry busySession_run⟩
  decide +kernel

/-! ## What the clients see -/

/-- The limits of a tenant, as they are given and as they are shown. -/
structure Limits where
  qp : Int32
  mr : Int32
  memory : Int64
  deriving DecidableEq

def StatusData.limits (d : StatusData) : Limits := ⟨d.qpLimit, d.mrLimit, d.memoryLimit⟩

def Entry.limits (e : Entry) : Limits := ⟨e.qp, e.mr, e.memory⟩

namespace Command

/-- The command gives the tenant these limits. -/
def Gives (tenantId : UInt32) (limits : Limits) : Command → Prop
  | .create id _ qp mr memory => id = tenantId ∧ limits = ⟨qp, mr, memory.toInt64⟩
  | .update id qp mr memory => id = tenantId ∧ limits = ⟨qp, mr, memory.toInt64⟩
  | _ => False

/-- The command is to change the tenant. -/
def Rewrites (tenantId : UInt32) : Command → Prop
  | .create id _ _ _ _ => id = tenantId
  | .update id _ _ _ => id = tenantId
  | .delete id => id = tenantId
  | _ => False

end Command

/-- The registry shows these limits of the tenant. -/
def Registry.Has (r : Registry) (tenantId : UInt32) (limits : Limits) : Prop :=
  ∃ entry, r tenantId = some entry ∧ entry.limits = limits

theorem Registry.has_update (r : Registry) (id tenantId : UInt32) (entry : Option Entry)
    (limits : Limits) :
    Registry.Has (Function.update r id entry) tenantId limits ↔
      (id = tenantId ∧ ∃ e, entry = some e ∧ e.limits = limits) ∨
        (r.Has tenantId limits ∧ id ≠ tenantId) := by
  unfold Registry.Has
  by_cases hid : tenantId = id
  · subst hid
    simp
  · rw [Function.update_of_ne hid]
    simp [Ne.symm hid]

/-- After a command the registry shows the limits that the command gave, or those
it showed before a command that was refused or was not about the tenant. -/
theorem Registry.has_serve (r : Registry) (c : Command) (tenantId : UInt32) (limits : Limits) :
    (r.serve c).2.Has tenantId limits ↔
      ((r.serve c).1.response.success = true ∧ c.Gives tenantId limits) ∨
        (r.Has tenantId limits ∧
          ¬((r.serve c).1.response.success = true ∧ c.Rewrites tenantId)) := by
  cases c with
  | create id name qp mr memory =>
      simp only [Registry.serve, Command.Gives, Command.Rewrites]
      split
      · simp [refusal]
      · rw [Registry.has_update]
        simp [done, Entry.limits, eq_comm]
  | update id qp mr memory =>
      simp only [Registry.serve, Command.Gives, Command.Rewrites]
      split
      · simp [refusal]
      · rw [Registry.has_update]
        simp [done, Entry.limits, eq_comm]
  | delete id =>
      simp only [Registry.serve, Command.Gives, Command.Rewrites]
      split
      · simp [refusal]
      · rw [Registry.has_update]
        simp [done]
  | status id =>
      simp only [Registry.serve, Command.Gives, Command.Rewrites]
      split <;> simp
  | statusAll | list | invalid => simp [Registry.serve, Command.Gives, Command.Rewrites]

/-- A message that was answered with success, with such a command in it. -/
def Accepted (json : JsonC) (p : Command → Prop) : SessionEvent → Prop
  | .message text reply =>
      reply.response.success = true ∧ ∃ c, understand json text = some c ∧ p c
  | .call _ _ => False

theorem has_step {e : SessionEvent} (hstep : SessionStep json s e s') (tenantId : UInt32)
    (limits : Limits) :
    (registry s').Has tenantId limits ↔
      Accepted json (Command.Gives tenantId limits) e ∨
        ((registry s).Has tenantId limits ∧ ¬Accepted json (Command.Rewrites tenantId) e) := by
  cases hstep with
  | message hanswered =>
      obtain ⟨c, hc, rfl, -⟩ := understood_of_answered hanswered
      have hhas := (registry s).has_serve c tenantId limits
      rw [serve_run, Command.shown] at hhas
      simpa [Accepted, hc] using hhas
  | call call hcall =>
      rw [registry_call hcall]
      simp [Accepted]

theorem status_data_iff (tenantId : UInt32) (limits : Limits) :
    (∃ data, (Command.status tenantId).data s = some data ∧ data.limits = limits) ↔
      (registry s).Has tenantId limits := by
  simp [Registry.Has, registry, Command.data, StatusData.limits, Entry.limits, StatusData.entry]

/-- In every session `STATUS` shows exactly the limits of the last command that was
accepted for the tenant: some `CREATE` or `UPDATE_QUOTA` with these limits was
answered with success, and no command that changes the tenant was since. -/
theorem status_shows_last_accepted {json : JsonC} {events : List SessionEvent}
    {s : TenantSharedMemory} (hrun : Run (SessionStep json) zeroed events s) (tenantId : UInt32)
    (limits : Limits) :
    (∃ data, (Command.status tenantId).data s = some data ∧ data.limits = limits) ↔
      Since (Accepted json (Command.Gives tenantId limits))
        (Accepted json (Command.Rewrites tenantId)) events := by
  rw [status_data_iff]
  refine hrun.history (P := fun events s => (registry s).Has tenantId limits ↔
    Since (Accepted json (Command.Gives tenantId limits))
      (Accepted json (Command.Rewrites tenantId)) events) ?_ ?_
  · rw [registry_zeroed]
    refine iff_of_false ?_ (not_since_nil _ _)
    rintro ⟨entry, hnone, -⟩
    cases hnone
  · intro events e s₁ s₂ hbefore hstep
    rw [since_snoc, has_step hstep, hbefore]

/-- After the session `STATUS` shows the limits of the update. -/
theorem status_shows_update : ∃ data,
    (Command.status 1).data afterAllocate = some data ∧
      data.limits = ⟨20, 60, 1073741824⟩ := by
  refine (status_shows_last_accepted busySession_run 1 _).mpr ?_
  refine ⟨busySession.take 2, .message updateMessage ⟨(updateCommand.run afterBind).1, none⟩,
    busySession.drop 3, rfl, ⟨by decide +kernel, updateCommand, understand_updateMessage, rfl,
      by decide⟩, ?_⟩
  intro e he
  rcases List.mem_cons.mp he with rfl | he
  · exact id
  · obtain rfl := List.mem_singleton.mp he
    rintro ⟨-, c, hc, hrewrites⟩
    rw [understand_statusMessage] at hc
    obtain rfl := Option.some.inj hc
    exact hrewrites

/-! ## What the clients send -/

section Client

variable {json : JsonC} {argv : List (List Char)}

/-- Where the client builds nothing, the command line asks for nothing. -/
theorem lineCommand_none (h : clientCommand json argv = none) : lineCommand argv = none := by
  unfold lineCommand
  unfold clientCommand at h
  cases hverb : (argv[1]?).bind clientVerb with
  | none => rfl
  | some verb =>
      rw [hverb, Option.bind_some] at h
      rw [Option.bind_some]
      cases verb with
      | create | update | delete => exact Option.map_eq_none_iff.mpr (Option.map_eq_none_iff.mp h)
      | status | list => cases h

/-- **Client and daemon agree.**  The client prints a usage text exactly if the
command line asks for nothing.  Otherwise the daemon understands from the
message, if it arrives whole and its fields read as they were written, what the
command line asks for. -/
theorem client_line_understood (hjson : json.Lawful) (argv : List (List Char))
    (harrives : ∀ o, clientCommand json argv = some o → json.Arrives o)
    (hshort : ∀ o, clientCommand json argv = some o →
      (json.toJsonString o).length < bufferSize) :
    (clientCommand json argv).map (fun o => understand json (received (json.toJsonString o))) =
      (lineCommand argv).map some := by
  cases hcommand : clientCommand json argv with
  | none =>
      rw [lineCommand_none hcommand]
      rfl
  | some object =>
      obtain ⟨verb, hverb, hbuild⟩ := Option.bind_eq_some_iff.mp hcommand
      obtain ⟨c, hline, hunderstood⟩ := understand_build hjson hverb hbuild
        (harrives object hcommand)
      rw [hline, Option.map_some, Option.map_some, received_of_short (hshort object hcommand),
        hunderstood]

end Client

/-- The line `create 3 10 50 4096 a"b/c`. -/
def namedLine : List (List Char) :=
  ["client".toList, "create".toList, "3".toList, "10".toList, "50".toList, "4096".toList,
    "a\"b/c".toList]

/-- The text that is sent for it. -/
def namedText : List Char :=
  "\x7b \"cmd\": \"CREATE\", \"tenant\": 3, \"name\": \"a\\\"b\\/c\", ".toList ++
    "\"qp\": 10, \"mr\": 50, \"memory\": 4096 \x7d".toList

/-- It reaches the daemon as what it is. -/
theorem client_line_understood_named :
    (clientCommand flatJson namedLine).map flatJson.toJsonString = some namedText ∧
      (clientCommand flatJson namedLine).map (fun o =>
          understand flatJson (received (flatJson.toJsonString o))) =
        some (some (.create 3 "a\"b/c".toList 10 50 4096)) := by
  have hasked : lineCommand namedLine = some (.create 3 "a\"b/c".toList 10 50 4096) := by
    decide +kernel
  have hsent : (clientCommand flatJson namedLine).map flatJson.toJsonString = some namedText := by
    decide +kernel
  refine ⟨hsent, ?_⟩
  have hagree := client_line_understood flatJson_lawful namedLine
    (fun o ho => by
      obtain rfl := Option.some.inj ho
      exact flatJson_arrives _)
    (fun o ho => by
      rw [ho, Option.map_some] at hsent
      rw [Option.some.inj hsent]
      decide +kernel)
  rw [hagree, hasked]
  rfl

end MtRdma.Ports.TenantManager
