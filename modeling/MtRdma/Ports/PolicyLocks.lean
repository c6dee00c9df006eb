import MtRdma.Verified.Mutex
import MtRdma.Ports.PolicySync

/-!
# The mutexes of the policy manager (`dynamic_policy_manager.c`)

Every function of the policy manager works on `g_policy_config` inside one
critical section of `g_policy_mutex`, and the functions for tenant policies
inside one of `g_tenant_mutex`.  Any thread may call them.  A further thread is
created by `dynamic_policy_init`: it sleeps, looks at `auto_adjust` without the
mutex, and if it is set takes the mutex and calls `dynamic_policy_adjust`,
which takes the mutex again.

The functions are given as code of `Verified.Mutex`, one instruction for each
operation on a mutex and each access to shared data, and all threads run
interleaved.  Their code is balanced, except for the branch of the created
thread that finds `auto_adjust` set.
-/

namespace MtRdma.Ports.PolicyLocks

open Verified.Runs
open Verified.Mutex
open DynamicPolicy (PolicyResource ResourceLimit)
open PolicyFile
open PolicySync (PolicyCall PolicyState setRuleLimit syncConfig)

/-! ## The code of the functions -/

/-- `g_policy_mutex` and `g_tenant_mutex`. -/
inductive PolicyMutex where
  | policy
  | tenant
  deriving Repr, DecidableEq

/-- What the functions do between operations on the mutexes. -/
inductive PolicyAct where
  /-- A change of `g_policy_config`. -/
  | write (f : DynamicPolicyConfig → DynamicPolicyConfig)
  /-- A look at `g_policy_config` that decides nothing. -/
  | read
  /-- An access to `g_tenant_policies`. -/
  | tenantTable
  /-- `g_running = flag`. -/
  | setRunning (flag : Bool)
  /-- `pthread_create` of `adjust_thread_func`. -/
  | createThread
  /-- `pthread_join(g_adjust_thread)`. -/
  | joinThread
  /-- `sleep`. -/
  | sleep
  /-- `while (g_running)`. -/
  | whileRunning
  /-- `if (!g_running) break`. -/
  | breakUnlessRunning
  /-- `if (g_policy_config.auto_adjust)`. -/
  | ifAutoAdjust

/-- Instructions of the policy manager. -/
abbrev PolicyOp := Op PolicyMutex PolicyAct

/-- `dynamic_policy_adjust`. -/
def adjustCode : List PolicyOp := critical .policy [.read]

/-- What `adjust_thread_func` runs when it finds `auto_adjust` set. -/
def adjustPass : List PolicyOp := .lock .policy :: (adjustCode ++ [.unlock .policy])

/-- One pass of the loop of `adjust_thread_func`, and its next test. -/
def loopBody : List PolicyOp :=
  [.act .sleep, .act .breakUnlessRunning, .act .ifAutoAdjust, .act .whileRunning]

/-- The zeroed configuration that `dynamic_policy_cleanup` leaves. -/
def zeroConfig : DynamicPolicyConfig :=
  ⟨zeroRule, zeroRule, zeroRule, zeroRule, zeroRule, false, 0, 0, 0⟩
where
  zeroRule : PolicyRule := ⟨0, .static, .qp, ⟨0, 0, 0⟩, 0, 0, 0, false⟩

/-- `high > 0.0f && high <= 1.0f` on the bits of a `float`. -/
def highInRange (high : UInt32) : Bool := decide (0 < high) && decide (high ≤ 0x3F800000)

/-- `low >= 0.0f && low < 1.0f`, which holds of the negative zero. -/
def lowInRange (low : UInt32) : Bool := decide (low < 0x3F800000) || decide (low = 0x80000000)

/-- The assignments of `dynamic_policy_set_auto_adjust`. -/
def setAutoAdjust (enable : Bool) (interval high low : UInt32) (config : DynamicPolicyConfig) :
    DynamicPolicyConfig :=
  { config with
    autoAdjust := enable
    adjustInterval := if 0 < interval then interval else config.adjustInterval
    highWatermark := if highInRange high then high else config.highWatermark
    lowWatermark := if lowInRange low then low else config.lowWatermark }

/-- The switch of `dynamic_policy_enable_rule`; an unknown resource has no
rule. -/
def enableRule (resource : PolicyResource) (enable : Bool) (config : DynamicPolicyConfig) :
    DynamicPolicyConfig :=
  match resource with
  | .qp => { config with qpPolicy.enabled := enable }
  | .mr => { config with mrPolicy.enabled := enable }
  | .cq => { config with cqPolicy.enabled := enable }
  | .pd => { config with pdPolicy.enabled := enable }
  | .memory => { config with memoryPolicy.enabled := enable }
  | .other _ => config

/-- The functions of the policy manager.  A null pointer, or a file that cannot
be opened, is `none`; `accepted` says that the arguments pass the checks made
before a mutex is taken. -/
inductive PolicyApi where
  | init (shmInitOk threadOk : Bool) (now : PolicyResource → Int)
  | cleanup
  | loadConfig (file : Option (List Char))
  | saveConfig
  | setLimit (resource : PolicyResource) (limit : Option ResourceLimit)
  | getLimit (accepted : Bool)
  | checkLimit
  | update (config : Option DynamicPolicyConfig)
  | getConfig (accepted : Bool)
  | setAutoAdjust (enable : Bool) (interval high low : UInt32)
  | adjust
  | printConfig
  | enableRule (resource : PolicyResource) (enable : Bool)
  | setDefault (now : PolicyResource → Int)
  | setTenantPolicy (accepted : Bool)
  | getTenantPolicy (accepted : Bool)
  | deleteTenantPolicy (accepted : Bool)
  | checkTenantLimit (accepted : Bool)
  | getAllTenantPolicies (accepted : Bool)

/-- A critical section that is entered if the arguments are accepted. -/
def sectionIf (accepted : Bool) (m : PolicyMutex) (acts : List PolicyAct) : List PolicyOp :=
  if accepted then critical m acts else []

/-- The code of a call.  A file is stored line by line, so the created thread
may see any of its lines. -/
def PolicyApi.code : PolicyApi → List PolicyOp
  | .init shmInitOk threadOk now =>
      critical .policy [.write fun _ => setDefaultConfig now] ++
        if shmInitOk then
          .act (.setRunning true) :: if threadOk then [.act .createThread] else []
        else []
  | .cleanup =>
      .act (.setRunning false) :: .act .joinThread ::
        critical .policy [.write fun _ => zeroConfig]
  | .loadConfig none => []
  | .loadConfig (some text) =>
      critical .policy ((fileEntries text).map fun entry => .write fun config =>
        applyEntry config entry)
  | .saveConfig => critical .policy [.read]
  | .setLimit _ none => []
  | .setLimit resource (some limit) =>
      critical .policy [.write fun config => (setRuleLimit resource limit config).getD config]
  | .getLimit accepted => sectionIf accepted .policy [.read]
  | .checkLimit => sectionIf true .policy [.read]
  | .update none => []
  | .update (some config) => critical .policy [.write fun _ => config]
  | .getConfig accepted => sectionIf accepted .policy [.read]
  | .setAutoAdjust enable interval high low =>
      critical .policy [.write (PolicyLocks.setAutoAdjust enable interval high low)]
  | .adjust => adjustCode
  | .printConfig => critical .policy [.read]
  | .enableRule resource enable =>
      critical .policy [.write (PolicyLocks.enableRule resource enable)]
  | .setDefault now => critical .policy [.write fun _ => setDefaultConfig now]
  | .setTenantPolicy accepted => sectionIf accepted .tenant [.tenantTable]
  | .getTenantPolicy accepted => sectionIf accepted .tenant [.tenantTable]
  | .deleteTenantPolicy accepted => sectionIf accepted .tenant [.tenantTable]
  | .checkTenantLimit accepted => sectionIf accepted .tenant [.tenantTable]
  | .getAllTenantPolicies accepted => sectionIf accepted .tenant [.tenantTable]

/-! ## The code computes what the calls compute -/

/-- The configuration after the writes of `code`. -/
def writes : List PolicyOp → DynamicPolicyConfig → DynamicPolicyConfig
  | [], config => config
  | .act (.write f) :: rest, config => writes rest (f config)
  | _ :: rest, config => writes rest config

theorem writes_critical (m : PolicyMutex)
    (fs : List (DynamicPolicyConfig → DynamicPolicyConfig)) :
    ∀ config, writes (critical m (fs.map .write)) config = fs.foldl (fun c f => f c) config := by
  intro config
  show writes (((fs.map PolicyAct.write).map .act) ++ [.unlock m]) config = _
  induction fs generalizing config with
  | nil => rfl
  | cons f fs ih => exact ih (f config)

/-- The function behind a call of `PolicySync`. -/
def apiOf : PolicyCall → PolicyApi
  | .init shmInitOk threadOk now => .init shmInitOk threadOk now
  | .setLimit resource limit => .setLimit resource limit
  | .update config => .update config
  | .loadConfig file => .loadConfig file
  | .setDefault now => .setDefault now

/-- Run alone, the code of a call leaves the configuration that the call
leaves. -/
theorem writes_apiOf (call : PolicyCall) (w : PolicyState) :
    writes (apiOf call).code w.config = (call.exec w).2.config := by
  cases call with
  | init shmInitOk threadOk now =>
      cases shmInitOk with
      | false => rfl
      | true => cases threadOk <;> rfl
  | setLimit resource limit =>
      cases limit with
      | none => rfl
      | some limit =>
          cases resource <;> rfl
  | update config =>
      cases config with
      | none | some => rfl
  | loadConfig file =>
      cases file with
      | none => rfl
      | some text =>
          have hload : (dynamicPolicyLoadConfig (some text) w.config).2 =
              (fileEntries text).foldl applyEntry w.config :=
            congrArg Prod.snd (load_eq_foldl text w.config)
          have hwrites := writes_critical .policy
            ((fileEntries text).map fun entry config => applyEntry config entry) w.config
          rw [List.map_map, List.foldl_map] at hwrites
          exact hwrites.trans hload.symm
  | setDefault now => rfl

/-! ## All threads together -/

/-- Threads that call the functions, and threads created by
`dynamic_policy_init`. -/
inductive ThreadId where
  | caller (n : Nat)
  | adjuster (n : Nat)
  deriving Repr, DecidableEq

/-- The threads and the mutexes, `g_policy_config`, `g_running`, and how many
threads have been created; the last one is `g_adjust_thread`. -/
structure LockWorld where
  threads : Threads ThreadId PolicyMutex PolicyAct
  config : DynamicPolicyConfig
  running : Bool
  created : Nat

/-- A thread calls a function, or performs its next instruction. -/
inductive LockEvent where
  | call (n : Nat) (api : PolicyApi)
  | step (t : ThreadId)

/-- The last created thread has returned, or none was created. -/
def LockWorld.adjusterEnded (w : LockWorld) : Bool :=
  w.created = 0 || (w.threads.code (.adjuster (w.created - 1))).isEmpty

/-- `t` goes on with `code`. -/
def LockWorld.goTo (w : LockWorld) (t : ThreadId) (code : List PolicyOp) : LockWorld :=
  { w with threads := w.threads.goTo t code }

/-- An action of `t` with `rest` behind it; `none` if it has to wait. -/
def LockWorld.perform (w : LockWorld) (t : ThreadId) (rest : List PolicyOp) :
    PolicyAct → Option LockWorld
  | .write f => some { w.goTo t rest with config := f w.config }
  | .read => some (w.goTo t rest)
  | .tenantTable => some (w.goTo t rest)
  | .setRunning flag => some { w.goTo t rest with running := flag }
  | .createThread =>
      some { (w.goTo t rest).goTo (.adjuster w.created) [.act .whileRunning] with
        created := w.created + 1 }
  | .joinThread => if w.adjusterEnded then some (w.goTo t rest) else none
  | .sleep => some (w.goTo t rest)
  | .whileRunning => some (w.goTo t (if w.running then loopBody else []))
  | .breakUnlessRunning => some (w.goTo t (if w.running then rest else []))
  | .ifAutoAdjust =>
      some (w.goTo t (if w.config.autoAdjust then adjustPass ++ rest else rest))

/-- One event; `none` if it cannot happen. -/
def LockWorld.next (w : LockWorld) : LockEvent → Option LockWorld
  | .call n api =>
      match w.threads.code (.caller n) with
      | [] => some (w.goTo (.caller n) api.code)
      | _ :: _ => none
  | .step t =>
      match w.threads.code t with
      | [] => none
      | .lock m :: rest =>
          if w.threads.owner m = none then some { w with threads := w.threads.take t m rest }
          else none
      | .unlock m :: rest => some { w with threads := w.threads.release t m rest }
      | .act a :: rest => w.perform t rest a

/-- A process with `config` before any call. -/
def LockWorld.idle (config : DynamicPolicyConfig) : LockWorld :=
  ⟨⟨fun _ => none, fun _ => []⟩, config, false, 0⟩

def LockStep (w : LockWorld) (e : LockEvent) (w' : LockWorld) : Prop := w.next e = some w'

/-! ## The discipline -/

/-- The actions that may end a thread or send it round its loop. -/
def OutsideOnly : PolicyAct → Prop
  | .whileRunning => True
  | .breakUnlessRunning => True
  | _ => False

theorem balanced_nil : Balanced OutsideOnly (fun _ => false) ([] : List PolicyOp) :=
  fun _ => rfl

theorem balanced_one (m : PolicyMutex) {a : PolicyAct} (ha : ¬OutsideOnly a) :
    Balanced OutsideOnly (fun _ => false) (critical m [a]) := by
  refine .critical m ?_
  intro a' ha'
  rw [List.mem_singleton.mp ha']
  exact ha

theorem balanced_sectionIf (accepted : Bool) (m : PolicyMutex) {a : PolicyAct}
    (ha : ¬OutsideOnly a) :
    Balanced OutsideOnly (fun _ => false) (sectionIf accepted m [a]) := by
  cases accepted with
  | false => exact balanced_nil
  | true => exact balanced_one m ha

/-- The code of every function keeps the discipline. -/
theorem PolicyApi.balanced (api : PolicyApi) :
    Balanced OutsideOnly (fun _ => false) api.code := by
  cases api with
  | init shmInitOk threadOk now =>
      refine Balanced.append ?_ _ _ (balanced_one .policy id)
      cases shmInitOk with
      | false => exact balanced_nil
      | true =>
          refine ⟨fun h => h.elim, ?_⟩
          cases threadOk with
          | false => exact balanced_nil
          | true => exact ⟨fun h => h.elim, balanced_nil⟩
  | cleanup => exact ⟨fun h => h.elim, fun h => h.elim, balanced_one .policy id⟩
  | loadConfig file =>
      cases file with
      | none => exact balanced_nil
      | some text =>
          refine .critical PolicyMutex.policy ?_
          intro a ha
          obtain ⟨entry, _, rfl⟩ := List.mem_map.mp ha
          exact id
  | setLimit resource limit =>
      cases limit with
      | none => exact balanced_nil
      | some limit => exact balanced_one .policy id
  | update config =>
      cases config with
      | none => exact balanced_nil
      | some config => exact balanced_one .policy id
  | getLimit accepted | getConfig accepted => exact balanced_sectionIf accepted .policy id
  | checkLimit => exact balanced_sectionIf true .policy id
  | saveConfig | adjust | printConfig => exact balanced_one .policy id
  | setAutoAdjust | enableRule | setDefault => exact balanced_one .policy id
  | setTenantPolicy accepted | getTenantPolicy accepted | deleteTenantPolicy accepted
  | checkTenantLimit accepted | getAllTenantPolicies accepted =>
      exact balanced_sectionIf accepted .tenant id

/-- The body of the loop of the created thread, as long as it does not adjust. -/
theorem balanced_loopBody : Balanced OutsideOnly (fun _ => false) loopBody :=
  ⟨fun h => h.elim, fun _ _ => rfl, fun h => h.elim, fun _ _ => rfl, balanced_nil⟩

/-- Every thread keeps the discipline, and threads that are not created yet
have no code. -/
structure Orderly (w : LockWorld) : Prop where
  disciplined : Disciplined OutsideOnly w.threads
  uncreated : ∀ n, w.created ≤ n → w.threads.code (.adjuster n) = []

variable {w w' : LockWorld} {t : ThreadId} {rest : List PolicyOp}

theorem Orderly.idle (config : DynamicPolicyConfig) : Orderly (.idle config) where
  disciplined := by
    intro t m
    exact decide_eq_false (fun h => (nomatch h))
  uncreated := fun _ _ => rfl

/-- A thread that has code is not one that is still to be created. -/
theorem Orderly.ne_uncreated (h : Orderly w) {op : PolicyOp}
    (hcode : w.threads.code t = op :: rest) :
    ∀ n, w.created ≤ n → ThreadId.adjuster n ≠ t := by
  intro n hn heq
  have hnone := h.uncreated n hn
  rw [heq, hcode] at hnone
  cases hnone

/-- The code of another thread says nothing about threads still to be created. -/
theorem Orderly.uncreated_update (h : Orderly w)
    (ht : ∀ n, w.created ≤ n → ThreadId.adjuster n ≠ t) (code : List PolicyOp) :
    ∀ n, w.created ≤ n → Function.update w.threads.code t code (.adjuster n) = [] := by
  intro n hn
  rw [Function.update_of_ne (ht n hn)]
  exact h.uncreated n hn

/-- `t` goes on with code that fits what it holds. -/
theorem Orderly.goTo (h : Orderly w) {code : List PolicyOp}
    (ht : ∀ n, w.created ≤ n → ThreadId.adjuster n ≠ t)
    (hcode : Balanced OutsideOnly (w.threads.held t) code) : Orderly (w.goTo t code) where
  disciplined := h.disciplined.goTo hcode
  uncreated := h.uncreated_update ht code

/-- Nothing in the discipline depends on the data. -/
theorem Orderly.of_same_threads (h : Orderly w) (hthreads : w'.threads = w.threads)
    (hcreated : w'.created = w.created) : Orderly w' := by
  refine ⟨?_, ?_⟩
  · rw [hthreads]
    exact h.disciplined
  · rw [hthreads, hcreated]
    exact h.uncreated

theorem Orderly.call (h : Orderly w) {n : Nat} (hidle : w.threads.code (.caller n) = [])
    (api : PolicyApi) : Orderly (w.goTo (.caller n) api.code) := by
  have hheld : w.threads.held (.caller n) = fun _ => false :=
    funext (h.disciplined.held_of_ended hidle)
  refine h.goTo (fun m _ => ?_) ?_
  · intro heq
    cases heq
  · rw [hheld]
    exact api.balanced

theorem Orderly.lock (h : Orderly w) {m : PolicyMutex}
    (hcode : w.threads.code t = .lock m :: rest) (hfree : w.threads.owner m = none) :
    Orderly { w with threads := w.threads.take t m rest } where
  disciplined := h.disciplined.take hcode hfree
  uncreated := h.uncreated_update (h.ne_uncreated hcode) rest

theorem Orderly.unlock (h : Orderly w) {m : PolicyMutex}
    (hcode : w.threads.code t = .unlock m :: rest) :
    Orderly { w with threads := w.threads.release t m rest } where
  disciplined := h.disciplined.release hcode
  uncreated := h.uncreated_update (h.ne_uncreated hcode) rest

/-- The thread that `pthread_create` starts holds nothing. -/
theorem Orderly.create (h : Orderly w) :
    Orderly { w.goTo (.adjuster w.created) [.act .whileRunning] with
      created := w.created + 1 } where
  disciplined := by
    have hended := h.disciplined.held_of_ended (h.uncreated w.created (Nat.le_refl _))
    exact h.disciplined.goTo ⟨fun _ => hended, hended⟩
  uncreated := by
    intro n hn
    have hn' : w.created + 1 ≤ n := hn
    have hne : ThreadId.adjuster n ≠ .adjuster w.created := by
      intro heq
      cases heq
      omega
    show Function.update w.threads.code (.adjuster w.created) [.act .whileRunning]
      (.adjuster n) = []
    rw [Function.update_of_ne hne]
    exact h.uncreated n (by omega)

/-- If the next instruction of `t` tests `auto_adjust`, the test fails. -/
def FindsAutoAdjustOff (w : LockWorld) : LockEvent → Prop
  | .call _ _ => True
  | .step t =>
      (w.threads.code t).head? = some (.act .ifAutoAdjust) → w.config.autoAdjust = false

/-- Every action keeps the discipline, unless it finds `auto_adjust` set. -/
theorem Orderly.perform (h : Orderly w) {a : PolicyAct}
    (hcode : w.threads.code t = .act a :: rest)
    (hoff : a = .ifAutoAdjust → w.config.autoAdjust = false)
    (hnext : w.perform t rest a = some w') : Orderly w' := by
  have hbalanced := h.disciplined t
  rw [hcode] at hbalanced
  obtain ⟨houtside, hrest⟩ := hbalanced
  have hne := h.ne_uncreated hcode
  have hgo : Orderly (w.goTo t rest) := h.goTo hne hrest
  cases a with
  | write f =>
      obtain rfl := Option.some.inj hnext
      exact hgo.of_same_threads rfl rfl
  | read | tenantTable | sleep =>
      obtain rfl := Option.some.inj hnext
      exact hgo
  | setRunning flag =>
      obtain rfl := Option.some.inj hnext
      exact hgo.of_same_threads rfl rfl
  | createThread =>
      obtain rfl := Option.some.inj hnext
      exact hgo.create
  | joinThread =>
      simp only [LockWorld.perform] at hnext
      split at hnext
      · obtain rfl := Option.some.inj hnext
        exact hgo
      · cases hnext
  | whileRunning =>
      obtain rfl := Option.some.inj hnext
      have hheld : w.threads.held t = fun _ => false := funext (houtside trivial)
      refine h.goTo hne ?_
      rw [hheld]
      split
      · exact balanced_loopBody
      · exact balanced_nil
  | breakUnlessRunning =>
      obtain rfl := Option.some.inj hnext
      refine h.goTo hne ?_
      split
      · exact hrest
      · exact houtside trivial
  | ifAutoAdjust =>
      obtain rfl := Option.some.inj hnext
      rw [hoff rfl]
      exact hgo

/-- **One event** keeps the discipline, unless the created thread finds
`auto_adjust` set. -/
theorem Orderly.step (h : Orderly w) {e : LockEvent} (hoff : FindsAutoAdjustOff w e)
    (hnext : LockStep w e w') : Orderly w' := by
  unfold LockStep LockWorld.next at hnext
  cases e with
  | call n api =>
      simp only at hnext
      split at hnext
      · rename_i hidle
        obtain rfl := Option.some.inj hnext
        exact h.call hidle api
      · cases hnext
  | step t =>
      simp only at hnext
      split at hnext
      · cases hnext
      · rename_i m rest hcode
        split at hnext
        · rename_i hfree
          obtain rfl := Option.some.inj hnext
          exact h.lock hcode hfree
        · cases hnext
      · rename_i m rest hcode
        obtain rfl := Option.some.inj hnext
        exact h.unlock hcode
      · rename_i a rest hcode
        refine h.perform hcode ?_ hnext
        rintro rfl
        exact hoff (by rw [hcode]; rfl)

/-! ## Whole runs -/

/-- Events in which a test of `auto_adjust` by the created thread fails. -/
def NonAdjustingStep (w : LockWorld) (e : LockEvent) (w' : LockWorld) : Prop :=
  FindsAutoAdjustOff w e ∧ LockStep w e w'

/-- **No self-deadlock without automatic adjustment.**  From any configuration,
whatever functions any threads call, in every interleaving with the created
threads in which no created thread finds `auto_adjust` set, no thread tries to
take `g_policy_mutex` while it holds it. -/
theorem no_self_deadlock {config : DynamicPolicyConfig} {events : List LockEvent}
    (hrun : Run NonAdjustingStep (.idle config) events w) (t : ThreadId) :
    ¬w.threads.WaitsForOwn t .policy := by
  have horderly : Orderly w := by
    refine hrun.invariant (Orderly.idle config) ?_
    rintro w₁ e w₂ h ⟨hoff, hnext⟩
    exact h.step hoff hnext
  exact horderly.disciplined.not_waitsForOwn

/-- The functions and the created thread, up to its first test of
`auto_adjust`. -/
def quietEvents : List LockEvent :=
  [.call 0 (.init true true fun _ => 0), .step (.caller 0), .step (.caller 0),
    .step (.caller 0), .step (.caller 0), .step (.caller 0), .step (.adjuster 0),
    .step (.adjuster 0), .step (.adjuster 0), .step (.adjuster 0)]

theorem quiet_run : ∃ w, Run NonAdjustingStep (.idle zeroConfig) quietEvents w := by
  -- `auto_adjust` is off in every state on the way
  have hquiet : ∃ w, quietEvents.foldlM (fun (v : LockWorld) e =>
      if v.config.autoAdjust then none else v.next e) (LockWorld.idle zeroConfig) = some w :=
    ⟨_, rfl⟩
  obtain ⟨w, hw⟩ := hquiet
  refine ⟨w, Run.mono ?_ (Run.of_foldlM hw)⟩
  intro w₁ e w₂ hnext
  cases hoff : w₁.config.autoAdjust with
  | true =>
      rw [hoff] at hnext
      cases hnext
  | false =>
      rw [hoff] at hnext
      cases e with
      | call n api => exact ⟨trivial, hnext⟩
      | step t => exact ⟨fun _ => hoff, hnext⟩

theorem no_self_deadlock_quiet :
    ∃ w, Run NonAdjustingStep (.idle zeroConfig) quietEvents w ∧
      ∀ t, ¬w.threads.WaitsForOwn t .policy := by
  obtain ⟨w, hrun⟩ := quiet_run
  exact ⟨w, hrun, no_self_deadlock hrun⟩

/-! ## With automatic adjustment -/

/-- A thread that waits for itself never goes on. -/
theorem next_of_waitsForOwn {m : PolicyMutex} (h : w.threads.WaitsForOwn t m) :
    w.next (.step t) = none := by
  obtain ⟨howner, hnext⟩ := h
  have hheld : w.threads.owner m ≠ none := by
    rw [howner]
    exact Option.some_ne_none t
  cases hcode : w.threads.code t with
  | nil => simp only [LockWorld.next, hcode]
  | cons op rest =>
      rw [hcode] at hnext
      obtain rfl : op = .lock m := Option.some.inj hnext
      simp only [LockWorld.next, hcode]
      exact if_neg hheld

/-- Once the created thread finds `auto_adjust` set, it waits for itself as soon
as it gets the mutex. -/
theorem waitsForOwn_of_autoAdjust (hcode : w.threads.code t = .act .ifAutoAdjust :: rest)
    (hon : w.config.autoAdjust = true) (hfree : w.threads.owner .policy = none) :
    ∃ w', Run LockStep w [.step t, .step t] w' ∧ w'.threads.WaitsForOwn t .policy := by
  have htest : LockStep w (.step t) (w.goTo t (adjustPass ++ rest)) := by
    simp only [LockStep, LockWorld.next, hcode, LockWorld.perform, hon, if_true]
  have hnext : (w.goTo t (adjustPass ++ rest)).threads.code t =
      .lock .policy :: (adjustCode ++ [.unlock .policy] ++ rest) :=
    Function.update_self t _ _
  have hlock : LockStep (w.goTo t (adjustPass ++ rest)) (.step t)
      { w.goTo t (adjustPass ++ rest) with
        threads := (w.goTo t (adjustPass ++ rest)).threads.take t .policy
          (adjustCode ++ [.unlock .policy] ++ rest) } := by
    simp only [LockStep, LockWorld.next, hnext]
    exact if_pos hfree
  refine ⟨_, .snoc (.snoc .start htest) hlock, ?_, ?_⟩
  · show Function.update w.threads.owner .policy (some t) .policy = some t
    rw [Function.update_self]
  · show (Function.update (w.goTo t (adjustPass ++ rest)).threads.code t
      (adjustCode ++ [Op.unlock PolicyMutex.policy] ++ rest) t).head? = some (.lock .policy)
    rw [Function.update_self]
    rfl

/-- `dynamic_policy_init`, then `dynamic_policy_set_auto_adjust` with its
default watermarks, and the created thread up to its test. -/
def adjustingEvents : List LockEvent :=
  [.call 0 (.init true true fun _ => 0), .step (.caller 0), .step (.caller 0),
    .step (.caller 0), .step (.caller 0), .step (.caller 0),
    .call 0 (.setAutoAdjust true 60 0x3F4CCCCD 0x3E4CCCCD), .step (.caller 0),
    .step (.caller 0), .step (.caller 0), .step (.adjuster 0), .step (.adjuster 0),
    .step (.adjuster 0)]

/-- The created thread waits for itself after its first sleep. -/
theorem adjuster_waits_for_itself :
    ∃ w, Run LockStep (.idle zeroConfig)
        (adjustingEvents ++ [.step (.adjuster 0), .step (.adjuster 0)]) w ∧
      w.threads.WaitsForOwn (.adjuster 0) .policy := by
  exact ⟨_, Run.of_foldlM rfl, rfl, rfl⟩

end MtRdma.Ports.PolicyLocks
