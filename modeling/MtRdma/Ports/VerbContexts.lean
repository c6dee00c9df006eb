import MtRdma.Verified.Runs
import MtRdma.Ports.HookFrame

/-!
# Opened contexts and their callbacks

`ibv_open_device` puts the wrapper into the `create_qp_ex` slot of each
context it opens and records the provider's callback in `g_verb_ctx_table`.
The table has 16 entries, nothing is ever taken out of it, and the wrapper
takes the first entry with the address of its context.

An address that the allocator hands out again is therefore answered by the
callback of the context that had it first, and a context opened when the table
is full has the wrapper and no callback at all.  Where neither happens every
open context dispatches to its own provider.
-/

namespace MtRdma.Ports.VerbContexts

open Verified.Runs
open RdmaHooks

variable {context callback : Nat} {table : List VerbCtx}

/-! ## One process and its contexts -/

/-- An open context: the callback its provider installed when it was opened,
and what its `create_qp_ex` slot holds now. -/
structure OpenContext where
  callback : Nat
  slot : ExCallback

/-- The process with the contexts that are open. -/
structure VerbWorld where
  view : View
  opened : Nat → Option OpenContext

/-- `ibv_create_qp_ex` of libibverbs: it calls what stands in the slot, and
refuses by itself if that is nothing. -/
def createQpEx (env : HookEnv) (real : Nat → QpInitAttr → Option Nat) (slot : ExCallback)
    (context : Nat) (attr : QpInitAttr) (v : View) : CreateQpResult × View :=
  match slot with
  | .absent => (⟨none, none, none⟩, v)
  | .provider callback => (⟨real callback attr, none, some attr⟩, v)
  | .wrapper => createQpExWrapper env real context attr v

inductive VerbEvent where
  | openDevice (env : HookEnv) (context callback : Nat)
  | closeDevice (context : Nat)
  | createQpEx (env : HookEnv) (real : Nat → QpInitAttr → Option Nat) (context : Nat)
      (attr : QpInitAttr)

/-- The answer of an open that returns `context` with the given callback. -/
def openResult (env : HookEnv) (context callback : Nat) (v : View) :
    CreateResult × ExCallback × View :=
  ibvOpenDevice env (some context) (.provider callback) v

/-- One event.  An open returns an address that is not open, and interception
is enabled; closing a device is not intercepted. -/
inductive VerbStep (w : VerbWorld) : VerbEvent → VerbWorld → Prop
  | openDevice {env : HookEnv} {context callback : Nat} :
      w.opened context = none →
      rdmaInterceptIsEnabled (hooksInitOnce env w.view).proc = true →
      (openResult env context callback w.view).1.object = some context →
      VerbStep w (.openDevice env context callback)
        { view := (openResult env context callback w.view).2.2
          opened := Function.update w.opened context
            (some ⟨callback, (openResult env context callback w.view).2.1⟩) }
  | closeDevice {context : Nat} {o : OpenContext} :
      w.opened context = some o →
      VerbStep w (.closeDevice context)
        { w with opened := Function.update w.opened context none }
  | createQpEx {env : HookEnv} {real : Nat → QpInitAttr → Option Nat} {context : Nat}
      {attr : QpInitAttr} {o : OpenContext} :
      w.opened context = some o →
      VerbStep w (.createQpEx env real context attr)
        { w with view := (VerbContexts.createQpEx env real o.slot context attr w.view).2 }

/-- A call on the context is denied by a limit or reaches the provider's own
callback, whatever the callbacks do. -/
def Dispatches (w : VerbWorld) (context : Nat) (o : OpenContext) : Prop :=
  ∀ env real attr,
    (createQpEx env real o.slot context attr w.view).1.errno = some .eperm ∨
    ∃ passed, (createQpEx env real o.slot context attr w.view).1.invoked = some passed ∧
      (createQpEx env real o.slot context attr w.view).1.qp = real o.callback passed

/-! ## The table -/

/-- The table has an entry for the address, and all it has name the callback. -/
structure Records (table : List VerbCtx) (context callback : Nat) : Prop where
  listed : ∃ e ∈ table, e.context = context
  same : ∀ e ∈ table, e.context = context → e.originalCreateQpEx = callback

theorem Records.find {p : Process} (h : Records p.verbCtxTable context callback) :
    findOriginalCreateQpEx context p = some callback := by
  unfold findOriginalCreateQpEx
  cases hfind : p.verbCtxTable.find? fun e => e.context == context with
  | none =>
      obtain ⟨e, he, hcontext⟩ := h.listed
      exact absurd hcontext (by simpa using List.find?_eq_none.mp hfind e he)
  | some e =>
      have hcontext : e.context = context := by simpa using List.find?_some hfind
      rw [Option.map_some, h.same e (List.mem_of_find?_eq_some hfind) hcontext]

/-- Recording another context is not seen under this address. -/
theorem Records.recordCtx_ne {other callback' : Nat} (h : Records table context callback)
    (hne : other ≠ context) :
    Records (recordCtx table other callback') context callback := by
  unfold recordCtx
  split
  · constructor
    · obtain ⟨e, he, hcontext⟩ := h.listed
      exact ⟨e, List.mem_append_left _ he, hcontext⟩
    · intro e he hcontext
      rcases List.mem_append.mp he with he | he
      · exact h.same e he hcontext
      · rw [List.mem_singleton] at he
        subst he
        exact absurd hcontext hne
  · exact h

/-- What an open needs of the table: no entry of the address names another
callback, and there is an entry already or room for one. -/
structure Recordable (table : List VerbCtx) (context callback : Nat) : Prop where
  same : ∀ e ∈ table, e.context = context → e.originalCreateQpEx = callback
  room : table.length < maxVerbsContexts ∨ ∃ e ∈ table, e.context = context

theorem Recordable.recordCtx (h : Recordable table context callback) :
    Records (recordCtx table context callback) context callback := by
  unfold RdmaHooks.recordCtx
  split
  · constructor
    · exact ⟨⟨context, callback⟩, by simp, rfl⟩
    · intro e he hcontext
      rcases List.mem_append.mp he with he | he
      · exact h.same e he hcontext
      · rw [List.mem_singleton] at he
        subst he
        rfl
  · rename_i hfull
    exact ⟨h.room.resolve_left hfull, h.same⟩

/-! ## What the calls do to it -/

section Calls

variable {env : HookEnv} {v : View}

theorem verbCtxTable_hooksInitOnce (env : HookEnv) (v : View) :
    (hooksInitOnce env v).proc.verbCtxTable = v.proc.verbCtxTable := by
  unfold hooksInitOnce
  split
  · rfl
  · unfold initFunctionPointers
    dsimp only
    split <;> rfl

/-- Under interception an open records the context and installs the wrapper. -/
theorem openResult_eq (henabled : rdmaInterceptIsEnabled (hooksInitOnce env v).proc = true)
    (hreturned : (openResult env context callback v).1.object = some context) :
    (openResult env context callback v).2.1 = .wrapper ∧
      (openResult env context callback v).2.2.proc.verbCtxTable =
        recordCtx v.proc.verbCtxTable context callback := by
  unfold openResult ibvOpenDevice at hreturned ⊢
  simp only [henabled] at hreturned ⊢
  by_cases hfound : (hooksInitOnce env v).proc.realVerbs.openDevice = false
  · rw [if_pos hfound] at hreturned
    cases hreturned
  · rw [if_neg hfound, ← verbCtxTable_hooksInitOnce env v]
    exact ⟨rfl, rfl⟩

theorem verbCtxTable_tenantStep (env : HookEnv) (v : View) :
    (tenantStep env v).2.proc.verbCtxTable = v.proc.verbCtxTable := by
  by_cases hne : (getCurrentTenantId env v).1 = 0
  · obtain ⟨_, _, _, hview⟩ := getCurrentTenantId_view env v
    unfold tenantStep
    simp only [hne, ne_eq, not_true_eq_false, false_and, if_false]
    rw [hview]
  · obtain ⟨-, _, _, _, _, hview⟩ := tenantStep_view hne
    rw [hview]

theorem verbCtxTable_createForTenant (real : QpInitAttr → Option Nat) (attr : QpInitAttr) :
    (createForTenant env real attr v).2.proc.verbCtxTable = v.proc.verbCtxTable := by
  rw [← verbCtxTable_tenantStep env v]
  have hcases := createForTenant_cases env real attr v
  generalize createForTenant env real attr v = result at hcases ⊢
  cases hcases with
  | denied => rfl
  | created =>
      unfold publish
      simp only
      split <;> rfl
  | failed => split <;> rfl

theorem verbCtxTable_createQpEx (real : Nat → QpInitAttr → Option Nat) (slot : ExCallback)
    (context : Nat) (attr : QpInitAttr) :
    (createQpEx env real slot context attr v).2.proc.verbCtxTable = v.proc.verbCtxTable := by
  cases slot with
  | absent | provider => rfl
  | wrapper =>
      unfold createQpEx createQpExWrapper
      simp only
      split
      · rfl
      · split
        · rfl
        · split
          · rfl
          · exact verbCtxTable_createForTenant _ _

/-- Past the checks the provider is asked once and its answer returned. -/
theorem createForTenant_reaches (real : QpInitAttr → Option Nat) (attr : QpInitAttr) :
    (createForTenant env real attr v).1.errno = some .eperm ∨
    ∃ passed, (createForTenant env real attr v).1.invoked = some passed ∧
      (createForTenant env real attr v).1.qp = real passed := by
  have hcases := createForTenant_cases env real attr v
  generalize createForTenant env real attr v = result at hcases ⊢
  cases hcases with
  | denied => exact .inl rfl
  | created qp decision hstep hreal => exact .inr ⟨_, rfl, hreal.symm⟩
  | failed tenantOk tenantId hstep hreal => exact .inr ⟨_, rfl, hreal.symm⟩

/-- The wrapper reaches the callback that the table records. -/
theorem wrapper_reaches (h : Records v.proc.verbCtxTable context callback)
    (real : Nat → QpInitAttr → Option Nat) (attr : QpInitAttr) :
    (createQpExWrapper env real context attr v).1.errno = some .eperm ∨
    ∃ passed, (createQpExWrapper env real context attr v).1.invoked = some passed ∧
      (createQpExWrapper env real context attr v).1.qp = real callback passed := by
  unfold createQpExWrapper
  rw [h.find]
  simp only
  split
  · exact .inr ⟨attr, rfl, rfl⟩
  · split
    · exact .inl rfl
    · exact createForTenant_reaches (real callback) attr

end Calls

/-! ## Runs -/

/-- Every open finds the table fit to record its context. -/
def RecordsOpen (w : VerbWorld) : VerbEvent → Prop
  | .openDevice _ context callback => Recordable w.view.proc.verbCtxTable context callback
  | .closeDevice _ => True
  | .createQpEx .. => True

/-- Every open context has the wrapper in its slot and its callback in the
table. -/
def VerbInv (w : VerbWorld) : Prop :=
  ∀ context o, w.opened context = some o →
    o.slot = .wrapper ∧ Records w.view.proc.verbCtxTable context o.callback

theorem VerbInv.step {w w' : VerbWorld} {e : VerbEvent} (h : VerbInv w)
    (hok : RecordsOpen w e) (hstep : VerbStep w e w') : VerbInv w' := by
  cases hstep with
  | @openDevice env context callback _ henabled hreturned =>
      obtain ⟨hslot, htable⟩ := openResult_eq henabled hreturned
      intro c o ho
      simp only at ho ⊢
      rw [htable]
      by_cases hc : c = context
      · subst hc
        rw [Function.update_self] at ho
        obtain rfl := Option.some.inj ho
        exact ⟨hslot, hok.recordCtx⟩
      · rw [Function.update_of_ne hc] at ho
        exact ⟨(h c o ho).1, (h c o ho).2.recordCtx_ne (Ne.symm hc)⟩
  | @closeDevice context _ _ =>
      intro c o ho
      simp only at ho ⊢
      by_cases hc : c = context
      · subst hc
        rw [Function.update_self] at ho
        cases ho
      · rw [Function.update_of_ne hc] at ho
        exact h c o ho
  | createQpEx _ =>
      intro c o ho
      simp only at ho ⊢
      rw [verbCtxTable_createQpEx]
      exact h c o ho

theorem VerbInv.dispatches {w : VerbWorld} (h : VerbInv w) {o : OpenContext}
    (ho : w.opened context = some o) : Dispatches w context o := by
  intro env real attr
  obtain ⟨hslot, hrecords⟩ := h context o ho
  rw [hslot]
  exact wrapper_reaches hrecords real attr

/-- **Every open context dispatches to its own provider** as long as each open
could be recorded: whatever was opened, closed and created before, a call on
an open context is denied by a limit or reaches the callback installed at the
most recent open of that context. -/
theorem contexts_dispatch {w₀ w : VerbWorld} {events : List VerbEvent}
    (hstart : ∀ context, w₀.opened context = none)
    (hrun : Run (fun w e w' => RecordsOpen w e ∧ VerbStep w e w') w₀ events w)
    {context : Nat} {o : OpenContext} (ho : w.opened context = some o) :
    Dispatches w context o := by
  have hinv : VerbInv w := by
    refine Run.invariant (P := VerbInv) ?_ (fun _ _ _ h hstep => h.step hstep.1 hstep.2) hrun
    intro c o hc
    rw [hstart c] at hc
    cases hc
  exact hinv.dispatches ho

/-- A context opened when the table is full is not recorded: every call on it
fails in the wrapper, whatever the limits say. -/
theorem unrecorded_context_fails {env : HookEnv} {v : View}
    (henabled : rdmaInterceptIsEnabled (hooksInitOnce env v).proc = true)
    (hreturned : (openResult env context callback v).1.object = some context)
    (hfull : maxVerbsContexts ≤ v.proc.verbCtxTable.length)
    (hnew : ∀ e ∈ v.proc.verbCtxTable, e.context ≠ context) (env' : HookEnv)
    (real : Nat → QpInitAttr → Option Nat) (attr : QpInitAttr) :
    (createQpEx env' real (openResult env context callback v).2.1 context attr
      (openResult env context callback v).2.2).1 = ⟨none, some .enosys, none⟩ := by
  obtain ⟨hslot, htable⟩ := openResult_eq henabled hreturned
  have hfind :
      findOriginalCreateQpEx context (openResult env context callback v).2.2.proc = none := by
    unfold findOriginalCreateQpEx
    rw [htable, recordCtx, if_neg (by omega), Option.map_eq_none_iff, List.find?_eq_none]
    intro e he
    simpa using hnew e he
  rw [hslot]
  unfold createQpEx createQpExWrapper
  rw [hfind]

/-! ## An address that is used again -/

/-- A process outside any tenant, with the given table. -/
def contextWorld (table : List VerbCtx) (opened : Nat → Option OpenContext) : VerbWorld where
  view := ⟨{ settledProcess 100 with tenantInitialized := false, verbCtxTable := table },
    SharedMemory.zeroed, SharedMemoryTenant.zeroed⟩
  opened := opened

/-- No context is open and none has been. -/
def freshWorld : VerbWorld := contextWorld [] fun _ => none

theorem open_step {opened : Nat → Option OpenContext} (context : Nat) (callback : Nat)
    (hfree : opened context = none) :
    VerbStep (contextWorld table opened) (.openDevice quietEnv context callback)
      (contextWorld (recordCtx table context callback)
        (Function.update opened context (some ⟨callback, .wrapper⟩))) :=
  .openDevice hfree rfl rfl

theorem contextWorld_opened {opened : Nat → Option OpenContext} (context : Nat) (o : OpenContext) :
    (contextWorld table (Function.update opened context (some o))).opened context = some o := by
  show Function.update opened context (some o) context = some o
  rw [Function.update_self]

theorem close_step {opened : Nat → Option OpenContext} (context : Nat) (o : OpenContext) :
    VerbStep (contextWorld table (Function.update opened context (some o))) (.closeDevice context)
      (contextWorld table
        (Function.update (Function.update opened context (some o)) context none)) :=
  .closeDevice (contextWorld_opened context o)

/-- Two contexts are opened, the first is closed and opened once more, with the
callback it had. -/
theorem contexts_dispatch_reopened :
    ∃ w, Run (fun w e w' => RecordsOpen w e ∧ VerbStep w e w') freshWorld
        [.openDevice quietEnv 1 7, .openDevice quietEnv 2 8, .closeDevice 1,
          .openDevice quietEnv 1 7] w ∧
      Dispatches w 1 ⟨7, .wrapper⟩ ∧ Dispatches w 2 ⟨8, .wrapper⟩ := by
  have hfirst : Run (fun w e w' => RecordsOpen w e ∧ VerbStep w e w') freshWorld
      [.openDevice quietEnv 1 7] _ :=
    Run.start.snoc ⟨⟨nofun, .inl (by decide)⟩, open_step 1 7 rfl⟩
  have hsecond := hfirst.snoc (a := VerbEvent.openDevice quietEnv 2 8)
    ⟨⟨by decide, .inl (by decide)⟩, open_step 2 8 rfl⟩
  have hclosed := hsecond.snoc (a := VerbEvent.closeDevice 1) ⟨trivial, .closeDevice rfl⟩
  have hagain := hclosed.snoc (a := VerbEvent.openDevice quietEnv 1 7)
    ⟨⟨by decide, .inl (by decide)⟩, open_step 1 7 rfl⟩
  exact ⟨_, hagain, contexts_dispatch (fun _ => rfl) hagain rfl,
    contexts_dispatch (fun _ => rfl) hagain rfl⟩

/-- An RC request. -/
def rcRequest : QpInitAttr := ⟨.rc, 16, 16⟩

/-- The context opened at the address of a closed one is answered by the
callback of the closed one. -/
theorem reused_address_dispatches_old :
    ∃ w, Run VerbStep freshWorld
        [.openDevice quietEnv 1 7, .closeDevice 1, .openDevice quietEnv 1 8] w ∧
      w.opened 1 = some ⟨8, .wrapper⟩ ∧
      (createQpEx quietEnv (fun callback _ => some callback) .wrapper 1 rcRequest w.view).1 =
        ⟨some 7, none, some rcRequest⟩ := by
  have hfirst : Run VerbStep freshWorld [.openDevice quietEnv 1 7] _ :=
    Run.start.snoc (open_step 1 7 rfl)
  have hclosed := hfirst.snoc (close_step 1 ⟨7, .wrapper⟩)
  have hagain := hclosed.snoc (open_step 1 8 (by rw [Function.update_self]))
  exact ⟨_, hagain, contextWorld_opened 1 ⟨8, .wrapper⟩, rfl⟩

end MtRdma.Ports.VerbContexts
