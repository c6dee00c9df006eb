import MtRdma.Verified.CLines
import MtRdma.Verified.MachineInt
import MtRdma.Ports.ManagerJson
import MtRdma.Ports.TenantLifecycle

/-!
# The tenant manager (`tenant_manager_client.c`, `tenant_manager_daemon.c`)

The client turns its command line into a JSON object and sends the text of the
object to the daemon, which looks the fields up and calls the tenant store.
Every number passes through four types on its way: `atoi` gives an `int`, the
object holds it as an integer, `json_object_get_int` gives an `int` again, and
the quota record holds it as `uint32_t`.

The first three steps lose nothing.  The last one turns a negative number into
a large one, and none of the steps refuses it.  A quota command is carried out
as given, or refused, exactly if the store refuses it or the numbers are not
negative (`quota_command_iff`).  On the way there a message is read as a command:
the daemon does what it understands (`process_understood`), and it understands
what the command line asked for (`understand_build`).

json-c is a parameter of both programs (`JsonC`).  A message is an arbitrary
text, and where the daemon passes a `NULL` string on to `strcmp` or `fprintf`
(a `cmd` or a `name` that is the JSON value `null`) its behaviour is undefined
and `processCommand` has no result.  The answers to `STATUS` and `LIST_TENANTS`
carry the tenants' records as data for display; the success flag and the message
are kept.  The daemon runs with the segment mapped.
-/

namespace MtRdma.Ports.TenantManager

open Verified.CText
open Verified.CLines
open Verified.MachineInt
open SharedMemoryTenant

/-! ## The client -/

/-- The memory quota used when none is given. -/
def defaultMemory : UInt64 := 1073741824

/-- The numbers and the name of a quota command, in the types of the client. -/
structure QuotaArgs where
  tenantId : UInt32
  qp : Int32
  mr : Int32
  mem : UInt64
  name : List Char
  deriving Repr, DecidableEq

/-- What `build_create_cmd` and `build_update_cmd` read from `argv`; `none` if
there are fewer than five arguments.  `atoll` is `strtol` on LP64. -/
def quotaArgs : List (List Char) → Option QuotaArgs
  | _ :: _ :: tenant :: qp :: mr :: rest =>
      some {
        tenantId := (atoi tenant).toUInt32
        qp := atoi qp
        mr := atoi mr
        mem := (rest.head?.map fun text => (Int64.ofInt (strtol text)).toUInt64).getD defaultMemory
        name := (rest[1]?).getD "unnamed".toList }
  | _ => none

/-- `build_create_cmd`. -/
def buildCreateCmd (json : JsonC) (argv : List (List Char)) : Option json.Obj :=
  (quotaArgs argv).map fun a => json.object [
    ("cmd", .string "CREATE".toList),
    ("tenant", .int a.tenantId.toInt32),
    ("name", .string a.name),
    ("qp", .int a.qp),
    ("mr", .int a.mr),
    ("memory", .int64 a.mem.toInt64)]

/-- `build_update_cmd`. -/
def buildUpdateCmd (json : JsonC) (argv : List (List Char)) : Option json.Obj :=
  (quotaArgs argv).map fun a => json.object [
    ("cmd", .string "UPDATE_QUOTA".toList),
    ("tenant", .int a.tenantId.toInt32),
    ("qp", .int a.qp),
    ("mr", .int a.mr),
    ("memory", .int64 a.mem.toInt64)]

/-- `build_delete_cmd`. -/
def buildDeleteCmd (json : JsonC) (argv : List (List Char)) : Option json.Obj :=
  (argv[2]?).map fun tenant => json.object [
    ("cmd", .string "DELETE".toList),
    ("tenant", .int (atoi tenant))]

/-- `build_status_cmd`. -/
def buildStatusCmd (json : JsonC) (argv : List (List Char)) : json.Obj :=
  match argv[2]? with
  | some tenant => json.object [
      ("cmd", .string "STATUS".toList),
      ("tenant", .int (atoi tenant))]
  | none => json.object [("cmd", .string "STATUS".toList)]

/-- `build_list_cmd`. -/
def buildListCmd (json : JsonC) : json.Obj :=
  json.object [("cmd", .string "LIST_TENANTS".toList)]

/-- The commands of the client. -/
inductive ClientVerb where
  | create
  | delete
  | update
  | status
  | list
  deriving Repr, DecidableEq

/-- The command that `argv[1]` names. -/
def clientVerb (text : List Char) : Option ClientVerb :=
  if text = "create".toList then some .create
  else if text = "delete".toList then some .delete
  else if text = "update".toList ∨ text = "set-quota".toList then some .update
  else if text = "status".toList then some .status
  else if text = "list".toList then some .list
  else none

/-- The object of a command. -/
def ClientVerb.build (json : JsonC) (argv : List (List Char)) : ClientVerb → Option json.Obj
  | .create => buildCreateCmd json argv
  | .delete => buildDeleteCmd json argv
  | .update => buildUpdateCmd json argv
  | .status => some (buildStatusCmd json argv)
  | .list => some (buildListCmd json)

/-- The object whose text `main` sends; `none` if it prints a usage text
instead. -/
def clientCommand (json : JsonC) (argv : List (List Char)) : Option json.Obj :=
  ((argv[1]?).bind clientVerb).bind (·.build json argv)

/-! ## The daemon -/

/-- `build_response`, without the data for display. -/
structure Response where
  success : Bool
  message : List Char
  deriving Repr, DecidableEq

/-- The quota record that both handlers fill in. -/
def managerQuota (qp mr : Int32) (mem : UInt64) : TenantQuota where
  maxQpPerTenant := qp.toUInt32
  maxMrPerTenant := mr.toUInt32
  maxMemoryPerTenant := mem
  maxCqPerTenant := qp.toUInt32
  maxPdPerTenant := 10

/-- The field `memory` as both handlers read it. -/
def memoryField (json : JsonC) (o : json.Obj) : UInt64 :=
  ((json.int64Field o "memory").map (·.toUInt64)).getD defaultMemory

/-- The field `name` as `handle_create` reads it; `none` is a `NULL` pointer. -/
def nameField (json : JsonC) (o : json.Obj) : Option (List Char) :=
  (json.stringField o "name").getD (some "unnamed".toList)

/-- A text as bytes. -/
def bytes (text : List Char) : List UInt8 := text.map fun c => UInt8.ofNat c.toNat

/-- The answer to a call of the store: what it returned decides between two
messages. -/
def answer (r : Int × TenantSharedMemory) (failed done : List Char) :
    Response × TenantSharedMemory :=
  if r.1 ≠ 0 then (⟨false, failed⟩, r.2) else (⟨true, done⟩, r.2)

/-- `handle_update_quota`. -/
def handleUpdateQuota (json : JsonC) (o : json.Obj) (s : TenantSharedMemory) :
    Response × TenantSharedMemory :=
  match json.intField o "tenant", json.intField o "qp" with
  | some tenant, some qp =>
      let tenantId := tenant.toUInt32
      let mr := (json.intField o "mr").getD qp
      answer (tenantUpdateQuota tenantId (managerQuota qp mr (memoryField json o)) s)
        "Failed to update quota".toList
        ("Quota updated for tenant ".toList ++ decimal tenantId.toNat)
  | _, _ => (⟨false, "Missing required fields: tenant, qp".toList⟩, s)

/-- `handle_create`.  The name is printed to the log before it is used, so that a
`NULL` pointer is undefined behaviour. -/
def handleCreate (json : JsonC) (o : json.Obj) (s : TenantSharedMemory) :
    Option (Response × TenantSharedMemory) :=
  match json.intField o "tenant" with
  | some tenant =>
      let tenantId := tenant.toUInt32
      let qp := (json.intField o "qp").getD 100
      let mr := (json.intField o "mr").getD 100
      (nameField json o).map fun name =>
        answer (tenantCreate tenantId (some (bytes name))
            (some (managerQuota qp mr (memoryField json o))) s)
          "Failed to create tenant".toList
          ("Tenant ".toList ++ decimal tenantId.toNat ++ " created".toList)
  | none => some (⟨false, "Missing required field: tenant".toList⟩, s)

/-- `handle_delete`. -/
def handleDelete (json : JsonC) (o : json.Obj) (s : TenantSharedMemory) :
    Response × TenantSharedMemory :=
  match json.intField o "tenant" with
  | some tenant =>
      let tenantId := tenant.toUInt32
      answer (tenantDelete tenantId s) "Failed to delete tenant".toList
        ("Tenant ".toList ++ decimal tenantId.toNat ++ " deleted".toList)
  | none => (⟨false, "Missing required field: tenant".toList⟩, s)

/-- `handle_status`. -/
def handleStatus (json : JsonC) (o : json.Obj) (s : TenantSharedMemory) : Response :=
  match json.intField o "tenant" with
  | none => ⟨true, "All tenants status".toList⟩
  | some tenant =>
      match tenantGetInfo tenant.toUInt32 s with
      | none => ⟨false, "Tenant not found".toList⟩
      | some _ => ⟨true, "Tenant status".toList⟩

/-- `handle_list_tenants`. -/
def handleListTenants : Response := ⟨true, "Tenant list".toList⟩

/-- The comparisons of `process_command` with the names of the commands. -/
def dispatch (json : JsonC) (cmd : List Char) (o : json.Obj) (s : TenantSharedMemory) :
    Option (Response × TenantSharedMemory) :=
  if cmd = "UPDATE_QUOTA".toList then some (handleUpdateQuota json o s)
  else if cmd = "CREATE".toList then handleCreate json o s
  else if cmd = "DELETE".toList then some (handleDelete json o s)
  else if cmd = "STATUS".toList then some (handleStatus json o s, s)
  else if cmd = "LIST_TENANTS".toList then some (handleListTenants, s)
  else some (⟨false, "Unknown command".toList⟩, s)

/-- `process_command`; `none` if a `NULL` string is used. -/
def processCommand (json : JsonC) (text : List Char) (s : TenantSharedMemory) :
    Option (Response × TenantSharedMemory) :=
  match json.tokenerParse text with
  | none => some (⟨false, "Invalid JSON".toList⟩, s)
  | some o =>
      match json.stringField o "cmd" with
      | none => some (⟨false, "Missing 'cmd' field".toList⟩, s)
      | some cmdType => cmdType.bind fun cmd => dispatch json cmd o s

/-- `BUFFER_SIZE`. -/
def bufferSize : Nat := 4096

/-- What `handle_client` receives of a message. -/
def received (message : List Char) : List Char := message.take (bufferSize - 1)

theorem received_of_short {message : List Char} (h : message.length < bufferSize) :
    received message = message := by
  apply List.take_of_length_le
  omega

/-! ## What is asked for -/

/-- The numbers on the command line of a quota command. -/
structure QuotaRequest where
  tenant : Int
  qp : Int
  mr : Int
  memory : Int
  deriving Repr, DecidableEq

/-- A 32-bit integer, with a sign or without. -/
def Fits32 (n : Int) : Prop := -2 ^ 31 ≤ n ∧ n < 2 ^ 32

/-- A 64-bit integer, with a sign or without. -/
def Fits64 (n : Int) : Prop := -2 ^ 63 ≤ n ∧ n < 2 ^ 64

instance (n : Int) : Decidable (Fits32 n) := inferInstanceAs (Decidable (_ ∧ _))

instance (n : Int) : Decidable (Fits64 n) := inferInstanceAs (Decidable (_ ∧ _))

/-- The command line gives these numbers, as decimal numerals; the memory may be
left out. -/
structure Asks (argv : List (List Char)) (r : QuotaRequest) : Prop where
  tenant : ∃ text, argv[2]? = some text ∧ Numeral text r.tenant
  qp : ∃ text, argv[3]? = some text ∧ Numeral text r.qp
  mr : ∃ text, argv[4]? = some text ∧ Numeral text r.mr
  memory : (∃ text, argv[5]? = some text ∧ Numeral text r.memory) ∨
    (argv[5]? = none ∧ r.memory = defaultMemory.toNat)
  tenant_fits : Fits32 r.tenant
  qp_fits : Fits32 r.qp
  mr_fits : Fits32 r.mr
  memory_fits : Fits64 r.memory

/-- The quota record holds the numbers asked for. -/
def Stores (r : QuotaRequest) (quota : TenantQuota) : Prop :=
  (quota.maxQpPerTenant.toNat : Int) = r.qp ∧ (quota.maxMrPerTenant.toNat : Int) = r.mr ∧
    (quota.maxMemoryPerTenant.toNat : Int) = r.memory

/-- The command failed and left every quota as it was, or succeeded and stored
what was asked for. -/
def Honoured (r : QuotaRequest) (s : TenantSharedMemory)
    (answered : Response × TenantSharedMemory) : Prop :=
  (answered.1.success = false ∧ ∀ t, (answered.2.tenants t).quota = (s.tenants t).quota) ∨
    (answered.1.success = true ∧ ∃ t : TenantIdx, (t.val : Int) = r.tenant ∧
      Stores r (answered.2.tenants t).quota)

/-- The store lets the command change the record of tenant `t`. -/
def Accepts (s : TenantSharedMemory) (t : TenantIdx) : ClientVerb → Prop
  | .create => t.val ≠ 0 ∧ (s.tenants t).status = .inactive
  | .update => (s.tenants t).status ≠ .inactive
  | _ => False

/-! ## What becomes of the numbers -/

theorem atoi_numeral {text : List Char} {n : Int} (h : Numeral text n) (hn : Fits32 n) :
    ((atoi text).toUInt32.toNat : Int) = n % 2 ^ 32 := by
  obtain ⟨hlo, hhi⟩ := hn
  have hvalue : strtol text = n := by
    rw [strtol_numeral h]
    omega
  rw [atoi, hvalue, toNat_toUInt32_ofInt_emod]

/-- What the client has in its variables. -/
structure Holds (a : QuotaArgs) (r : QuotaRequest) : Prop where
  tenantId : (a.tenantId.toNat : Int) = r.tenant % 2 ^ 32
  qp : (a.qp.toUInt32.toNat : Int) = r.qp % 2 ^ 32
  mr : (a.mr.toUInt32.toNat : Int) = r.mr % 2 ^ 32
  mem : (a.mem.toNat : Int) = min r.memory (2 ^ 63 - 1) % 2 ^ 64

/-- `atoll` stops at the largest `long`. -/
theorem atoll_numeral {text : List Char} {n : Int} (h : Numeral text n) (hn : Fits64 n) :
    ((Int64.ofInt (strtol text)).toUInt64.toNat : Int) = min n (2 ^ 63 - 1) % 2 ^ 64 := by
  obtain ⟨hlo, hhi⟩ := hn
  have hvalue : strtol text = min n (2 ^ 63 - 1) := by
    rw [strtol_numeral h]
    omega
  rw [hvalue, toNat_toUInt64_ofInt_emod]

theorem quotaArgs_of_asks {argv : List (List Char)} {r : QuotaRequest} (h : Asks argv r) :
    ∃ a, quotaArgs argv = some a ∧ Holds a r := by
  obtain ⟨tenant, htenant, hnumTenant⟩ := h.tenant
  obtain ⟨qp, hqp, hnumQp⟩ := h.qp
  obtain ⟨mr, hmr, hnumMr⟩ := h.mr
  have hmemory := h.memory
  match argv, htenant, hqp, hmr, hmemory with
  | _ :: _ :: _ :: _ :: _ :: rest, rfl, rfl, rfl, hmemory =>
      refine ⟨_, rfl, atoi_numeral hnumTenant h.tenant_fits, atoi_numeral hnumQp h.qp_fits,
        atoi_numeral hnumMr h.mr_fits, ?_⟩
      cases rest with
      | nil =>
          obtain ⟨text, hnone, -⟩ | ⟨-, hdefault⟩ := hmemory
          · cases hnone
          · rw [hdefault]
            show (defaultMemory.toNat : Int) = _
            decide
      | cons memory rest =>
          obtain ⟨text, hsome, hnum⟩ | ⟨hnone, -⟩ := hmemory
          · obtain rfl : memory = text := Option.some.inj hsome
            exact atoll_numeral hnum h.memory_fits
          · cases hnone

/-- The record holds what was asked for exactly if nothing was negative, and the
memory is within `long`. -/
theorem stores_managerQuota_iff {a : QuotaArgs} {r : QuotaRequest} (ha : Holds a r)
    (hqp : Fits32 r.qp) (hmr : Fits32 r.mr) (hmemory : Fits64 r.memory) :
    Stores r (managerQuota a.qp a.mr a.mem) ↔
      0 ≤ r.qp ∧ 0 ≤ r.mr ∧ 0 ≤ r.memory ∧ r.memory < 2 ^ 63 := by
  obtain ⟨-, hq, hm, hmem⟩ := ha
  unfold Stores managerQuota
  rw [hq, hm, hmem]
  unfold Fits32 at hqp hmr
  unfold Fits64 at hmemory
  omega

/-- A record is found for the number asked for, and for no other. -/
theorem tenantIdx_iff {a : QuotaArgs} {r : QuotaRequest} (ha : Holds a r)
    (htenant : Fits32 r.tenant) (t : TenantIdx) :
    tenantIdx? a.tenantId = some t ↔ (t.val : Int) = r.tenant := by
  have hid := ha.tenantId
  have hlt : t.val < 128 := t.isLt
  obtain ⟨hlo, hhi⟩ := htenant
  rw [tenantIdx?_eq_some_iff]
  omega

/-! ## What a message asks for -/

/-- What a message asks for. -/
inductive Command where
  | create (tenantId : UInt32) (name : List Char) (qp mr : Int32) (memory : UInt64)
  | update (tenantId : UInt32) (qp mr : Int32) (memory : UInt64)
  | delete (tenantId : UInt32)
  | status (tenantId : UInt32)
  | statusAll
  | list
  | invalid (message : List Char)
  deriving Repr, DecidableEq

/-- What an object asks for, by the value of `cmd`; `none` if the daemon would
use a `NULL` string. -/
def understandObject (json : JsonC) (cmd : List Char) (o : json.Obj) : Option Command :=
  if cmd = "UPDATE_QUOTA".toList then
    match json.intField o "tenant", json.intField o "qp" with
    | some tenant, some qp =>
        some (.update tenant.toUInt32 qp ((json.intField o "mr").getD qp) (memoryField json o))
    | _, _ => some (.invalid "Missing required fields: tenant, qp".toList)
  else if cmd = "CREATE".toList then
    match json.intField o "tenant" with
    | some tenant => (nameField json o).map fun name =>
        .create tenant.toUInt32 name ((json.intField o "qp").getD 100)
          ((json.intField o "mr").getD 100) (memoryField json o)
    | none => some (.invalid "Missing required field: tenant".toList)
  else if cmd = "DELETE".toList then
    match json.intField o "tenant" with
    | some tenant => some (.delete tenant.toUInt32)
    | none => some (.invalid "Missing required field: tenant".toList)
  else if cmd = "STATUS".toList then
    match json.intField o "tenant" with
    | some tenant => some (.status tenant.toUInt32)
    | none => some .statusAll
  else if cmd = "LIST_TENANTS".toList then some .list
  else some (.invalid "Unknown command".toList)

/-- What a message asks for; `none` if its behaviour is undefined. -/
def understand (json : JsonC) (text : List Char) : Option Command :=
  match json.tokenerParse text with
  | none => some (.invalid "Invalid JSON".toList)
  | some o =>
      match json.stringField o "cmd" with
      | none => some (.invalid "Missing 'cmd' field".toList)
      | some cmdType => cmdType.bind fun cmd => understandObject json cmd o

/-- A command is carried out on the store. -/
def Command.run (s : TenantSharedMemory) : Command → Response × TenantSharedMemory
  | .create tenantId name qp mr memory =>
      answer (tenantCreate tenantId (some (bytes name)) (some (managerQuota qp mr memory)) s)
        "Failed to create tenant".toList
        ("Tenant ".toList ++ decimal tenantId.toNat ++ " created".toList)
  | .update tenantId qp mr memory =>
      answer (tenantUpdateQuota tenantId (managerQuota qp mr memory) s)
        "Failed to update quota".toList
        ("Quota updated for tenant ".toList ++ decimal tenantId.toNat)
  | .delete tenantId =>
      answer (tenantDelete tenantId s) "Failed to delete tenant".toList
        ("Tenant ".toList ++ decimal tenantId.toNat ++ " deleted".toList)
  | .status tenantId =>
      (match tenantGetInfo tenantId s with
        | none => ⟨false, "Tenant not found".toList⟩
        | some _ => ⟨true, "Tenant status".toList⟩, s)
  | .statusAll => (⟨true, "All tenants status".toList⟩, s)
  | .list => (⟨true, "Tenant list".toList⟩, s)
  | .invalid message => (⟨false, message⟩, s)

theorem dispatch_understood (json : JsonC) (cmd : List Char) (o : json.Obj)
    (s : TenantSharedMemory) :
    dispatch json cmd o s = (understandObject json cmd o).map (·.run s) := by
  unfold dispatch understandObject
  by_cases hupdate : cmd = "UPDATE_QUOTA".toList
  · rw [if_pos hupdate, if_pos hupdate]
    unfold handleUpdateQuota
    cases json.intField o "tenant" <;> cases json.intField o "qp" <;> rfl
  rw [if_neg hupdate, if_neg hupdate]
  by_cases hcreate : cmd = "CREATE".toList
  · rw [if_pos hcreate, if_pos hcreate]
    unfold handleCreate
    cases json.intField o "tenant" <;> cases nameField json o <;> rfl
  rw [if_neg hcreate, if_neg hcreate]
  by_cases hdelete : cmd = "DELETE".toList
  · rw [if_pos hdelete, if_pos hdelete]
    unfold handleDelete
    cases json.intField o "tenant" <;> rfl
  rw [if_neg hdelete, if_neg hdelete]
  by_cases hstatus : cmd = "STATUS".toList
  · rw [if_pos hstatus, if_pos hstatus]
    unfold handleStatus
    cases json.intField o "tenant" <;> rfl
  rw [if_neg hstatus, if_neg hstatus]
  by_cases hlist : cmd = "LIST_TENANTS".toList
  · rw [if_pos hlist, if_pos hlist]
    rfl
  · rw [if_neg hlist, if_neg hlist]
    rfl

/-- The daemon does what it understands. -/
theorem process_understood (json : JsonC) (text : List Char) (s : TenantSharedMemory) :
    processCommand json text s = (understand json text).map (·.run s) := by
  unfold processCommand understand
  cases json.tokenerParse text with
  | none => rfl
  | some o =>
      dsimp only
      cases json.stringField o "cmd" with
      | none => rfl
      | some cmdType =>
          cases cmdType with
          | none => rfl
          | some cmd => exact dispatch_understood json cmd o s

/-- What a command line of the client asks for; `none` if it prints a usage text
instead. -/
def lineCommand (argv : List (List Char)) : Option Command :=
  ((argv[1]?).bind clientVerb).bind fun
    | .create => (quotaArgs argv).map fun a => .create a.tenantId a.name a.qp a.mr a.mem
    | .update => (quotaArgs argv).map fun a => .update a.tenantId a.qp a.mr a.mem
    | .delete => (argv[2]?).map fun tenant => .delete (atoi tenant).toUInt32
    | .status =>
        some (((argv[2]?).map fun tenant => .status (atoi tenant).toUInt32).getD .statusAll)
    | .list => some .list

section Client

variable {json : JsonC} {argv : List (List Char)}

/-- A message of the client is understood by the fields that were put into it. -/
theorem understand_object (hjson : json.Lawful) {fields : List (String × FieldValue)}
    (cmd : List Char) (harrives : json.Arrives (json.object fields))
    (hcmd : fields.reverse.lookup "cmd" = some (.string cmd)) :
    ∃ o, Received json (json.toJsonString (json.object fields)) fields o ∧
      understand json (json.toJsonString (json.object fields)) = understandObject json cmd o := by
  obtain ⟨o, hreceived⟩ := received_of_arrives hjson harrives
  refine ⟨o, hreceived, ?_⟩
  unfold understand
  rw [hreceived.parsed]
  dsimp only
  rw [hreceived.string_eq hjson hcmd]
  rfl

/-- The daemon understands each object the client builds. -/
theorem understand_build (hjson : json.Lawful) {verb : ClientVerb} {object : json.Obj}
    (hverb : (argv[1]?).bind clientVerb = some verb)
    (hbuild : verb.build json argv = some object) (harrives : json.Arrives object) :
    ∃ c, lineCommand argv = some c ∧ understand json (json.toJsonString object) = some c := by
  unfold lineCommand
  rw [hverb, Option.bind_some]
  cases verb with
  | create =>
      obtain ⟨a, ha, rfl⟩ := Option.map_eq_some_iff.mp hbuild
      obtain ⟨o, hreceived, hunderstood⟩ := understand_object hjson "CREATE".toList
        harrives (by simp [lookup_cons_eq_ite])
      refine ⟨_, congrArg (Option.map _) ha, ?_⟩
      rw [hunderstood]
      simp [understandObject, memoryField, nameField, hreceived.int, hreceived.int64,
        hreceived.string, lookup_cons_eq_ite, hjson.getInt_newInt, hjson.getInt64_newInt64,
        hjson.getString_newString]
  | update =>
      obtain ⟨a, ha, rfl⟩ := Option.map_eq_some_iff.mp hbuild
      obtain ⟨o, hreceived, hunderstood⟩ := understand_object hjson "UPDATE_QUOTA".toList
        harrives (by simp [lookup_cons_eq_ite])
      refine ⟨_, congrArg (Option.map _) ha, ?_⟩
      rw [hunderstood]
      simp [understandObject, memoryField, hreceived.int, hreceived.int64, lookup_cons_eq_ite,
        hjson.getInt_newInt, hjson.getInt64_newInt64]
  | delete =>
      obtain ⟨tenant, htenant, rfl⟩ := Option.map_eq_some_iff.mp hbuild
      obtain ⟨o, hreceived, hunderstood⟩ := understand_object hjson "DELETE".toList
        harrives (by simp [lookup_cons_eq_ite])
      refine ⟨_, congrArg (Option.map _) htenant, ?_⟩
      rw [hunderstood]
      simp [understandObject, hreceived.int, hjson.getInt_newInt]
  | status =>
      obtain rfl := Option.some.inj hbuild
      refine ⟨_, rfl, ?_⟩
      unfold buildStatusCmd at harrives ⊢
      cases htenant : argv[2]? with
      | none =>
          rw [htenant] at harrives
          obtain ⟨o, hreceived, hunderstood⟩ := understand_object hjson "STATUS".toList
            harrives (by simp)
          dsimp only
          rw [hunderstood]
          simp [understandObject, hreceived.int, lookup_cons_eq_ite]
      | some tenant =>
          rw [htenant] at harrives
          obtain ⟨o, hreceived, hunderstood⟩ := understand_object hjson "STATUS".toList
            harrives (by simp [lookup_cons_eq_ite])
          dsimp only
          rw [hunderstood]
          simp [understandObject, hreceived.int, hjson.getInt_newInt]
  | list =>
      obtain rfl := Option.some.inj hbuild
      obtain ⟨o, -, hunderstood⟩ := understand_object hjson "LIST_TENANTS".toList
        harrives (by simp)
      refine ⟨_, rfl, ?_⟩
      unfold buildListCmd
      rw [hunderstood]
      simp [understandObject]

end Client

/-! ## What becomes of the command -/

/-- What a call of the store comes to: it is refused, or it writes `quota` to a
record that can take it. -/
inductive StoreOutcome (s : TenantSharedMemory) (quota : TenantQuota) (takes : TenantIdx → Prop) :
    Int × TenantSharedMemory → Prop
  | refused : (∀ t, ¬takes t) → StoreOutcome s quota takes (-1, s)
  | taken (t : TenantIdx) (s' : TenantSharedMemory) : takes t → (s'.tenants t).quota = quota →
      StoreOutcome s quota takes (0, s')

theorem tenantUpdateQuota_outcome (tenantId : UInt32) (quota : TenantQuota)
    (s : TenantSharedMemory) :
    StoreOutcome s quota (fun t => tenantIdx? tenantId = some t ∧ Accepts s t .update)
      (tenantUpdateQuota tenantId quota s) := by
  unfold tenantUpdateQuota
  cases ht : tenantIdx? tenantId with
  | none => exact .refused fun t h => nomatch h.1
  | some t =>
      dsimp only
      by_cases hst : (s.tenants t).status = .inactive
      · rw [if_pos hst]
        refine .refused fun t' h => ?_
        obtain rfl : t = t' := Option.some.inj h.1
        exact h.2 hst
      · rw [if_neg hst]
        refine .taken t _ ⟨rfl, hst⟩ ?_
        show (Function.update s.tenants t _ t).quota = quota
        rw [Function.update_self]

theorem tenantCreate_outcome (tenantId : UInt32) (name : List UInt8) (quota : TenantQuota)
    (s : TenantSharedMemory) :
    StoreOutcome s quota (fun t => tenantIdx? tenantId = some t ∧ Accepts s t .create)
      (tenantCreate tenantId (some name) (some quota) s) := by
  have hzero : ∀ t, tenantIdx? tenantId = some t → (t.val ≠ 0 ↔ tenantId ≠ 0) := by
    intro t ht
    rw [tenantIdx?_eq_some_iff.mp ht, not_iff_not, ← UInt32.toNat_inj]
    rfl
  obtain hrefused | ⟨t, hne, ht, hst, htaken⟩ :=
    tenantCreate_cases tenantId (some name) (some quota) s
  · rw [hrefused]
    refine .refused fun t h => ?_
    have htaken := tenantCreate_inactive ((hzero t h.1).mp h.2.1) h.1 h.2.2 (some name) (some quota)
    rw [hrefused] at htaken
    cases htaken
  · rw [htaken]
    refine .taken t _ ⟨ht, (hzero t ht).mpr hne, hst⟩ ?_
    show (Function.update s.tenants t (freshTenant tenantId (some name) (some quota)) t).quota =
      quota
    rw [Function.update_self]
    rfl

/-- The answer to a call of the store honours the request if the call was refused,
or the record holds what was asked for. -/
theorem StoreOutcome.honoured_iff {r : QuotaRequest} {s : TenantSharedMemory}
    {quota : TenantQuota} {takes : TenantIdx → Prop} {call : Int × TenantSharedMemory}
    (h : StoreOutcome s quota takes call) (htakes : ∀ t, takes t → (t.val : Int) = r.tenant)
    (failed done : List Char) :
    Honoured r s (answer call failed done) ↔ ((∃ t, takes t) → Stores r quota) := by
  cases h with
  | refused hnone =>
      refine ⟨fun _ ⟨t, ht⟩ => absurd ht (hnone t), fun _ => .inl ⟨rfl, fun t => rfl⟩⟩
  | taken t s' ht hquota =>
      constructor
      · rintro (⟨hfailed, -⟩ | ⟨-, t', ht', hstores⟩) _
        · cases hfailed
        · obtain rfl : t = t' := by
            have heq := htakes t ht
            exact Fin.ext (by omega)
          exact hquota ▸ hstores
      · intro hstores
        exact .inr ⟨rfl, t, htakes t ht, hquota.symm ▸ hstores ⟨t, ht⟩⟩

/-- A `create` or `update` command that reaches the daemon is answered, and it is
honoured exactly if the store refuses it, or none of its numbers is negative and
the memory is within `long`. -/
theorem quota_command_iff {json : JsonC} (hjson : json.Lawful) {argv : List (List Char)}
    {r : QuotaRequest} {verb : ClientVerb} {object : json.Obj} (hasks : Asks argv r)
    (hverb : (argv[1]?).bind clientVerb = some verb) (hquota : verb = .create ∨ verb = .update)
    (hobject : clientCommand json argv = some object) (harrives : json.Arrives object)
    (hshort : (json.toJsonString object).length < bufferSize) (s : TenantSharedMemory) :
    ∃ answered, processCommand json (received (json.toJsonString object)) s = some answered ∧
      (Honoured r s answered ↔
        ((∃ t : TenantIdx, (t.val : Int) = r.tenant ∧ Accepts s t verb) →
          0 ≤ r.qp ∧ 0 ≤ r.mr ∧ 0 ≤ r.memory ∧ r.memory < 2 ^ 63)) := by
  obtain ⟨a, ha, hholds⟩ := quotaArgs_of_asks hasks
  have hidx := tenantIdx_iff hholds hasks.tenant_fits
  have hbuild : verb.build json argv = some object := by
    rw [clientCommand, hverb] at hobject
    exact hobject
  obtain ⟨c, hline, hunderstood⟩ := understand_build hjson hverb hbuild harrives
  have hprocess : processCommand json (json.toJsonString object) s = some (c.run s) := by
    rw [process_understood, hunderstood]
    rfl
  rw [lineCommand, hverb, Option.bind_some] at hline
  rw [received_of_short hshort, hprocess,
    ← stores_managerQuota_iff hholds hasks.qp_fits hasks.mr_fits hasks.memory_fits]
  refine ⟨_, rfl, ?_⟩
  obtain rfl | rfl := hquota
  · obtain rfl := Option.some.inj ((congrArg (Option.map _) ha).symm.trans hline)
    refine ((tenantCreate_outcome a.tenantId (bytes a.name) _ s).honoured_iff
      (fun t ht => (hidx t).mp ht.1) _ _).trans ?_
    simp only [hidx]
  · obtain rfl := Option.some.inj ((congrArg (Option.map _) ha).symm.trans hline)
    refine ((tenantUpdateQuota_outcome a.tenantId _ s).honoured_iff
      (fun t ht => (hidx t).mp ht.1) _ _).trans ?_
    simp only [hidx]

/-- The command line `create 1 <qp> 50`. -/
def createLine (qp : List Char) : List (List Char) :=
  ["client".toList, "create".toList, "1".toList, qp, "50".toList]

theorem numeral_digits {digits : List Char} (hne : digits ≠ [])
    (hdigits : digits.all Char.isDigit = true) {n : Nat} (hn : Nat.ofDigitChars 10 digits 0 = n) :
    Numeral digits n := by
  rw [← hn]
  exact .unsigned hne (List.all_eq_true.mp hdigits)

theorem createLine_asks {qp : List Char} {n : Int} (hqp : Numeral qp n) (hn : Fits32 n) :
    Asks (createLine qp) ⟨1, n, 50, 1073741824⟩ where
  tenant := ⟨"1".toList, rfl, numeral_digits (by decide) (by decide) (by decide)⟩
  qp := ⟨qp, rfl, hqp⟩
  mr := ⟨"50".toList, rfl, numeral_digits (by decide) (by decide) (by decide)⟩
  memory := .inr ⟨rfl, rfl⟩
  tenant_fits := (by decide : Fits32 1)
  qp_fits := hn
  mr_fits := (by decide : Fits32 50)
  memory_fits := (by decide : Fits64 1073741824)

/-- The object of `create 1 <qp> 50`. -/
def createObject (json : JsonC) (qp : Int32) : json.Obj :=
  json.object [
    ("cmd", .string "CREATE".toList),
    ("tenant", .int 1),
    ("name", .string "unnamed".toList),
    ("qp", .int qp),
    ("mr", .int 50),
    ("memory", .int64 1073741824)]

theorem createLine_verb (qp : List Char) : ((createLine qp)[1]?).bind clientVerb = some .create :=
  rfl

theorem clientCommand_createLine (json : JsonC) (qp : List Char) :
    clientCommand json (createLine qp) = some (createObject json (atoi qp)) := by
  rw [clientCommand, createLine_verb]
  rfl

/-- The text that is sent for `create 1 <qp> 50`. -/
def createText (qp : List Char) : List Char :=
  "\x7b \"cmd\": \"CREATE\", \"tenant\": 1, \"name\": \"unnamed\", \"qp\": ".toList ++ qp ++
    ", \"mr\": 50, \"memory\": 1073741824 \x7d".toList

/-- `create 1 10 50` stores the numbers given. -/
theorem quota_command_ten :
    (clientCommand flatJson (createLine "10".toList)).map flatJson.toJsonString =
        some (createText "10".toList) ∧
      ∃ answered, processCommand flatJson (received (createText "10".toList)) zeroed =
          some answered ∧ Honoured ⟨1, 10, 50, 1073741824⟩ zeroed answered := by
  have hline := clientCommand_createLine flatJson "10".toList
  have htext : flatJson.toJsonString (createObject flatJson (atoi "10".toList)) =
      createText "10".toList := by decide +kernel
  have hten : Numeral "10".toList 10 := numeral_digits (by decide) (by decide) (by decide)
  have hshort : (createText "10".toList).length < bufferSize := by decide +kernel
  obtain ⟨answered, hanswered, hiff⟩ := quota_command_iff flatJson_lawful
    (createLine_asks hten (by decide)) (createLine_verb _) (.inl rfl) hline (flatJson_arrives _)
    (htext ▸ hshort) zeroed
  rw [htext] at hanswered
  exact ⟨by rw [hline, Option.map_some, htext], answered, hanswered, hiff.mpr fun _ => by decide⟩

/-- `create 1 -1 50` succeeds, and gives the tenant more than four billion
queue pairs. -/
theorem negative_quota_stored :
    Asks (createLine "-1".toList) ⟨1, -1, 50, 1073741824⟩ ∧
      (clientCommand flatJson (createLine "-1".toList)).map flatJson.toJsonString =
        some (createText "-1".toList) ∧
      ∃ answered, processCommand flatJson (received (createText "-1".toList)) zeroed =
          some answered ∧ answered.1.success = true ∧
        (answered.2.tenants 1).quota.maxQpPerTenant = 4294967295 ∧
        ¬Honoured ⟨1, -1, 50, 1073741824⟩ zeroed answered := by
  have hminus : Numeral "-1".toList (-1) :=
    .minus (List.cons_ne_nil _ _) (List.all_eq_true.mp (by decide))
  have hline : (clientCommand flatJson (createLine "-1".toList)).map flatJson.toJsonString =
      some (createText "-1".toList) := by decide +kernel
  have hstored : (processCommand flatJson (received (createText "-1".toList)) zeroed).map
      (fun a => (a.1.success, (a.2.tenants 1).quota.maxQpPerTenant)) =
        some (true, 4294967295) := by decide +kernel
  obtain ⟨answered, hanswered, hpair⟩ := Option.map_eq_some_iff.mp hstored
  obtain ⟨hsuccess, hqp⟩ := Prod.mk.inj hpair
  refine ⟨createLine_asks hminus (by decide), hline, answered, hanswered, hsuccess, hqp, ?_⟩
  rintro (⟨hfailed, -⟩ | ⟨-, t, -, hstores, -⟩)
  · rw [hsuccess] at hfailed
    cases hfailed
  · -- a count is never negative
    have hnegative : ((answered.2.tenants t).quota.maxQpPerTenant.toNat : Int) = -1 := hstores
    omega

end MtRdma.Ports.TenantManager
