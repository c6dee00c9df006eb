import MtRdma.Verified.Interleaving
import MtRdma.Ports.TenantIsolation

/-!
# Attaching to the tenant segment (`tenant_shm_init`)

The tenant segment carries a version word.  A process that maps the segment
and finds version 0 takes it for a new one, clears it and sets the version to
1.  Afterwards every call of the store adds 1 to the version, after it has
released the lock: the word is read and written in two steps, and additions of
several processes may overwrite each other.

Nothing protects the initialisation itself.  Two processes that both find
version 0 both clear, and the later one takes away what has been stored in the
meantime.  What can be relied on is this: if no process looks at the version
while another one is between finding 0 and setting 1, then no call of the store
is ever lost, whatever the version additions do to each other
(`no_call_lost`).  That they never bring the version back to 0 is part of the
argument, so the runs are shorter than 2^64 steps.

The calls of the store are single steps here.
-/

namespace MtRdma.Ports.TenantSegment

open Verified.Runs
open Verified.Interleaving
open SharedMemoryTenant

/-! ## The processes -/

/-- The store and the version word. -/
structure Segment where
  store : TenantSharedMemory
  version : UInt64

/-- All bytes zero: what `ftruncate` gives, and what `memset` leaves. -/
def blank : Segment := ⟨zeroed, 0⟩

/-- How far a process has got. -/
inductive Phase where
  | unmapped
  | checking
  | clearing
  | marking
  | attached
  /-- A call has given the lock back and owes its addition to the version. -/
  | released
  | adding (read : UInt64)
  deriving DecidableEq

inductive Action where
  | map
  /-- The test for a new segment; `stated` says that `fstat` succeeded. -/
  | check (stated : Bool)
  | clear
  | mark
  | call (call : StoreCall)
  /-- The further addition to the version by which the manager ends an update of
  a quota. -/
  | touch
  | readVersion
  | writeVersion

/-- One action of one process. -/
def attachStep : Phase × Segment → Action → Option (Phase × Segment)
  | (.unmapped, g), .map => some (.checking, g)
  | (.checking, g), .check stated =>
      if stated = true ∧ g.version = 0 then some (.clearing, g) else some (.attached, g)
  | (.clearing, _), .clear => some (.marking, blank)
  | (.marking, g), .mark => some (.attached, { g with version := 1 })
  | (.attached, g), .call call => some (.released, { g with store := (storeCall g.store call).2 })
  | (.attached, g), .touch => some (.released, g)
  | (.released, g), .readVersion => some (.adding g.version, g)
  | (.adding read, g), .writeVersion => some (.attached, { g with version := read + 1 })
  | _, _ => none

/-- What an action can do, with the outcome of the test. -/
inductive AttachMove (g : Segment) : Phase → Action → Phase → Segment → Prop
  | map : AttachMove g .unmapped .map .checking g
  | found {stated : Bool} (h : ¬(stated = true ∧ g.version = 0)) :
      AttachMove g .checking (.check stated) .attached g
  | new (h : g.version = 0) : AttachMove g .checking (.check true) .clearing g
  | clear : AttachMove g .clearing .clear .marking blank
  | mark : AttachMove g .marking .mark .attached { g with version := 1 }
  | call (call : StoreCall) :
      AttachMove g .attached (.call call) .released { g with store := (storeCall g.store call).2 }
  | touch : AttachMove g .attached .touch .released g
  | readVersion : AttachMove g .released .readVersion (.adding g.version) g
  | writeVersion (read : UInt64) :
      AttachMove g (.adding read) .writeVersion .attached { g with version := read + 1 }

theorem attachStep_cases {k k' : Phase} {g g' : Segment} {a : Action}
    (h : attachStep (k, g) a = some (k', g')) : AttachMove g k a k' g' := by
  cases k with
  | unmapped => cases a with
    | map => cases h; exact .map
    | _ => cases h
  | checking => cases a with
    | check stated =>
        by_cases htest : stated = true ∧ g.version = 0
        · have hnew := (if_pos htest).symm.trans h
          cases hnew
          rw [htest.1]
          exact .new htest.2
        · have hfound := (if_neg htest).symm.trans h
          cases hfound
          exact .found htest
    | _ => cases h
  | clearing => cases a with
    | clear => cases h; exact .clear
    | _ => cases h
  | marking => cases a with
    | mark => cases h; exact .mark
    | _ => cases h
  | attached => cases a with
    | call call => cases h; exact .call call
    | touch => cases h; exact .touch
    | _ => cases h
  | released => cases a with
    | readVersion => cases h; exact .readVersion
    | _ => cases h
  | adding read => cases a with
    | writeVersion => cases h; exact .writeVersion read
    | _ => cases h

/-- Between finding version 0 and setting version 1. -/
def initialising : Phase → Nat
  | .clearing => 1
  | .marking => 1
  | _ => 0

/-- A process that finds version 0 is alone in doing so, and `fstat` works for
it; `others` processes besides it are initialising. -/
def Orderly (others : Nat) (x : Phase × Segment) (a : Action) : Prop :=
  ∀ stated, a = .check stated → x.2.version = 0 → stated = true ∧ others = 0

/-- Any number of processes before the first one maps the segment. -/
def untouched (ι : Type) : Config ι Phase Segment := ⟨blank, fun _ => .unmapped⟩

/-- The calls of the store among the actions, oldest first. -/
def calls {ι : Type} (labels : List (ι × Action)) : List StoreCall :=
  labels.filterMap fun label =>
    match label.2 with
    | .call call => some call
    | _ => none

/-- The store after these calls. -/
def storeAfter (calls : List StoreCall) : TenantSharedMemory :=
  calls.foldl (fun s call => (storeCall s call).2) zeroed

/-! ## The invariant -/

/-- Not attached yet. -/
def Phase.Early (p : Phase) : Prop :=
  p = .unmapped ∨ p = .checking ∨ p = .clearing ∨ p = .marking

/-- No version that a process has read is above `n`. -/
def Phase.ReadAtMost (n : Nat) : Phase → Prop
  | .adding read => read.toNat ≤ n
  | _ => True

theorem Phase.ReadAtMost.mono {n m : Nat} {p : Phase} (h : p.ReadAtMost n) (hle : n ≤ m) :
    p.ReadAtMost m := by
  cases p with
  | adding read => exact Nat.le_trans h hle
  | _ => trivial

/-- What is known after the calls `done`, with `busy` processes initialising:
the segment is still new, or it is established for good. -/
inductive Kept (done : List StoreCall) (busy : Nat) (g : Segment) (early : Prop) : Prop
  | new (hbusy : busy ≤ 1) (hversion : g.version = 0) (hstore : g.store = zeroed)
      (hnone : done = []) (hearly : early)
  | established (hbusy : busy = 0) (hversion : g.version ≠ 0) (hstore : g.store = storeAfter done)

/-- An addition of fewer than 2^64 does not end at 0. -/
theorem add_one_ne_zero_of_le {v : UInt64} {n : Nat} (hv : v.toNat ≤ n) (hn : n + 1 < 2 ^ 64) :
    v + 1 ≠ 0 := by
  intro hzero
  have hmod : (v + 1).toNat = (v.toNat + 1) % 2 ^ 64 := UInt64.toNat_add v 1
  have hsmall : (v.toNat + 1) % 2 ^ 64 = v.toNat + 1 := Nat.mod_eq_of_lt (by omega)
  rw [hzero, hsmall] at hmod
  exact absurd hmod.symm (Nat.succ_ne_zero _)

section Steps

variable {done : List StoreCall} {rest : Nat} {k k' : Phase} {g g' : Segment} {a : Action}
  {others : Prop}

/-- An action that only moves on a process of an established segment. -/
theorem Kept.move {done : List StoreCall} {busy busy' : Nat} {g : Segment} {early early' : Prop}
    (h : Kept done busy g early) (hbusy : busy' = busy) (hearly : early → early') :
    Kept done busy' g early' := by
  cases h with
  | new hb hv hstore hnone he => exact .new (hbusy ▸ hb) hv hstore hnone (hearly he)
  | established hb hv hstore => exact .established (hbusy.trans hb) hv hstore

/-- An attached process is one of an established segment. -/
theorem Kept.of_attached (h : Kept done (rest + initialising k) g (k.Early ∧ others))
    (hattached : ¬k.Early) : g.version ≠ 0 ∧ rest + initialising k = 0 ∧
      g.store = storeAfter done := by
  cases h with
  | new _ _ _ _ hearly => exact absurd hearly.1 hattached
  | established hbusy hversion hstore => exact ⟨hversion, hbusy, hstore⟩

/-- A process clears and marks only a segment that is new. -/
theorem Kept.of_initialising (h : Kept done (rest + 1) g (k.Early ∧ others)) :
    rest = 0 ∧ g.version = 0 ∧ g.store = zeroed ∧ done = [] ∧ others := by
  cases h with
  | new hbusy hversion hstore hnone hearly =>
      exact ⟨by omega, hversion, hstore, hnone, hearly.2⟩
  | established hbusy => omega

/-- One step of one process: `rest` of the others are initialising, and `others`
says that they are all early. -/
theorem Kept.step (h : Kept done (rest + initialising k) g (k.Early ∧ others)) {n : Nat}
    (hread : k.ReadAtMost n) (hn : n + 1 < 2 ^ 64) (hok : Orderly rest (k, g) a)
    (hmove : AttachMove g k a k' g') :
    Kept (done ++ calls [((), a)]) (rest + initialising k') g' (k'.Early ∧ others) := by
  have hquiet : calls [((), a)] = [] → done ++ calls [((), a)] = done := by
    intro hnil
    rw [hnil, List.append_nil]
  cases hmove with
  | map =>
      rw [hquiet rfl]
      exact h.move rfl fun hearly => ⟨.inr (.inl rfl), hearly.2⟩
  | @found stated htest =>
      rw [hquiet rfl]
      cases h with
      | new _ hversion _ _ _ =>
          obtain ⟨hstated, -⟩ := hok stated rfl hversion
          exact absurd ⟨hstated, hversion⟩ htest
      | established hbusy hversion hstore => exact .established hbusy hversion hstore
  | new hversion =>
      rw [hquiet rfl]
      cases h with
      | new _ _ hstore hnone hearly =>
          obtain ⟨-, hrest⟩ := hok true rfl hversion
          refine .new ?_ hversion hstore hnone ⟨.inr (.inr (.inl rfl)), hearly.2⟩
          rw [hrest]
          exact Nat.le_refl 1
      | established _ hestablished _ => exact absurd hversion hestablished
  | clear =>
      rw [hquiet rfl]
      obtain ⟨hrest, -, -, hnone, hothers⟩ := Kept.of_initialising h
      refine .new ?_ rfl rfl hnone ⟨.inr (.inr (.inr rfl)), hothers⟩
      rw [hrest]
      exact Nat.le_refl 1
  | mark =>
      rw [hquiet rfl]
      obtain ⟨hrest, -, hstore, hnone, -⟩ := Kept.of_initialising h
      refine .established ?_ (by show (1 : UInt64) ≠ 0; decide) ?_
      · rw [hrest]
        rfl
      · rw [hnone]
        exact hstore
  | call call =>
      obtain ⟨hversion, hbusy, hstore⟩ := h.of_attached (by simp [Phase.Early])
      refine .established hbusy hversion ?_
      show (storeCall g.store call).2 = storeAfter (done ++ [call])
      rw [storeAfter, List.foldl_append, hstore]
      rfl
  | touch =>
      rw [hquiet rfl]
      obtain ⟨hversion, hbusy, hstore⟩ := h.of_attached (by simp [Phase.Early])
      exact .established hbusy hversion hstore
  | readVersion =>
      rw [hquiet rfl]
      obtain ⟨hversion, hbusy, hstore⟩ := h.of_attached (by simp [Phase.Early])
      exact .established hbusy hversion hstore
  | writeVersion read =>
      rw [hquiet rfl]
      obtain ⟨-, hbusy, hstore⟩ := h.of_attached (by simp [Phase.Early])
      refine .established hbusy ?_ hstore
      show read + 1 ≠ 0
      exact add_one_ne_zero_of_le hread hn

/-- The versions that are about grow by one with each step. -/
theorem AttachMove.bounds (hmove : AttachMove g k a k' g') {n : Nat} (hread : k.ReadAtMost n)
    (hversion : g.version.toNat ≤ n) :
    k'.ReadAtMost (n + 1) ∧ g'.version.toNat ≤ n + 1 := by
  have hlater : g.version.toNat ≤ n + 1 := Nat.le_succ_of_le hversion
  cases hmove with
  | map | found | new | call | touch => exact ⟨trivial, hlater⟩
  | clear => exact ⟨trivial, Nat.zero_le _⟩
  | mark => exact ⟨trivial, Nat.le_add_left 1 n⟩
  | readVersion => exact ⟨hlater, hlater⟩
  | writeVersion read =>
      refine ⟨trivial, ?_⟩
      show (read + 1).toNat ≤ n + 1
      have hle : read.toNat ≤ n := hread
      have hmod : (read + 1).toNat = (read.toNat + 1) % 2 ^ 64 := UInt64.toNat_add read 1
      have hcut := Nat.mod_le (read.toNat + 1) (2 ^ 64)
      omega

end Steps

/-! ## Whole runs -/

theorem calls_snoc {ι : Type} (labels : List (ι × Action)) (i : ι) (a : Action) :
    calls (labels ++ [(i, a)]) = calls labels ++ calls [((), a)] := by
  unfold calls
  rw [List.filterMap_append]
  rfl

section Runs

variable {ι : Type} [Fintype ι] [DecidableEq ι]

/-- The invariant of all processes together. -/
structure Sound (labels : List (ι × Action)) (c : Config ι Phase Segment) : Prop where
  kept : Kept (calls labels) (tally initialising c.control) c.shared (∀ j, (c.control j).Early)
  read : ∀ j, (c.control j).ReadAtMost labels.length
  version : c.shared.version.toNat ≤ labels.length

theorem Sound.step {labels : List (ι × Action)} {c c' : Config ι Phase Segment}
    {label : ι × Action} (h : Sound labels c) (hn : labels.length + 1 < 2 ^ 64)
    (hstep : GuardedBy initialising Orderly attachStep c label c') :
    Sound (labels ++ [label]) c' := by
  obtain ⟨i, a⟩ := label
  obtain ⟨hok, hact⟩ := hstep
  obtain ⟨⟨k', g'⟩, heq, rfl⟩ := Option.map_eq_some_iff.mp hact
  have hsplit : (∀ j, (c.control j).Early) ↔
      (c.control i).Early ∧ ∀ j, j ≠ i → (c.control j).Early := by
    constructor
    · exact fun hall => ⟨hall i, fun j _ => hall j⟩
    · rintro ⟨hi, hothers⟩ j
      by_cases hji : j = i
      · exact hji ▸ hi
      · exact hothers j hji
  have hkept := h.kept
  rw [hsplit, tally_eq_others_add initialising _ i] at hkept
  have hmove := attachStep_cases heq
  have hkept' := hkept.step (h.read i) hn hok hmove
  obtain ⟨hread', hversion'⟩ := hmove.bounds (h.read i) h.version
  have hother : ∀ {j}, j ≠ i → Function.update c.control i k' j = c.control j := by
    intro j hj
    exact Function.update_of_ne hj _ _
  have hlength : (labels ++ [(i, a)]).length = labels.length + 1 := by simp
  refine ⟨?_, ?_, ?_⟩
  · rw [calls_snoc, tally_update]
    have hearly : (k'.Early ∧ ∀ j, j ≠ i → (c.control j).Early) ↔
        ∀ j, (Function.update c.control i k' j).Early := by
      constructor
      · rintro ⟨hi, hothers⟩ j
        by_cases hji : j = i
        · rw [hji, Function.update_self]
          exact hi
        · rw [hother hji]
          exact hothers j hji
      · intro hall
        refine ⟨?_, fun j hj => ?_⟩
        · simpa using hall i
        · rw [← hother hj]
          exact hall j
    rw [← hearly]
    exact hkept'
  · intro j
    rw [hlength]
    show (Function.update c.control i k' j).ReadAtMost _
    by_cases hji : j = i
    · rw [hji, Function.update_self]
      exact hread'
    · rw [hother hji]
      exact (h.read j).mono (Nat.le_succ _)
  · rw [hlength]
    exact hversion'

omit [DecidableEq ι] in
theorem sound_untouched : Sound ([] : List (ι × Action)) (untouched ι) where
  kept := by
    have hnone : tally initialising (untouched ι).control = 0 := tally_eq_zero fun _ => rfl
    exact .new (hnone ▸ Nat.zero_le 1) rfl rfl rfl fun _ => .inl rfl
  read := fun _ => trivial
  version := Nat.le_refl 0

/-- **No call is lost.**  If a process looks at the version only while nobody else
is between finding 0 and setting 1, then the store is at any time what all
calls made so far, in their order, make of the empty one. -/
theorem no_call_lost {labels : List (ι × Action)} {c : Config ι Phase Segment}
    (hrun : Run (GuardedBy initialising Orderly attachStep) (untouched ι) labels c)
    (hshort : labels.length < 2 ^ 64) : c.shared.store = storeAfter (calls labels) := by
  have hsound : labels.length < 2 ^ 64 → Sound labels c := by
    refine Run.history (P := fun labels c => labels.length < 2 ^ 64 → Sound labels c)
      (fun _ => sound_untouched) ?_ hrun
    intro labels label c c' hbefore hstep hlength
    rw [List.length_append, List.length_singleton] at hlength
    exact (hbefore (Nat.lt_of_succ_lt hlength)).step hlength hstep
  cases (hsound hshort).kept with
  | new _ _ hstore hnone _ =>
      rw [hnone]
      exact hstore
  | established _ _ hstore => exact hstore

end Runs

/-- Two processes map the segment.  One establishes the store, the other finds it,
and both create a tenant. -/
def establishAndJoin : List (Fin 2 × Action) :=
  [(0, .map), (1, .map), (0, .check true), (0, .clear), (0, .mark), (1, .check false),
    (1, .call (.create 1 none none)), (0, .call (.create 2 none none))]

theorem no_call_lost_two : ∃ c : Config (Fin 2) Phase Segment,
    Run (GuardedBy initialising Orderly attachStep) (untouched (Fin 2)) establishAndJoin c ∧
      c.shared.store = (tenantCreate 2 none none (tenantCreate 1 none none zeroed).2).2 := by
  have hmap : Run (GuardedBy initialising Orderly attachStep) (untouched (Fin 2)) [(0, .map)] _ :=
    Run.start.snoc ⟨nofun, interleaved_of_step rfl⟩
  have hboth := hmap.snoc (a := (1, .map)) ⟨nofun, interleaved_of_step rfl⟩
  have hcheck := hboth.snoc (a := (0, .check true))
    ⟨fun _ h _ => ⟨(Action.check.inj h).symm, rfl⟩, interleaved_of_step rfl⟩
  have hclear := hcheck.snoc (a := (0, .clear)) ⟨nofun, interleaved_of_step rfl⟩
  have hmark := hclear.snoc (a := (0, .mark)) ⟨nofun, interleaved_of_step rfl⟩
  -- The second process cannot tell the size, but has no need to: it finds version 1.
  have hjoin := hmark.snoc (a := (1, .check false))
    ⟨fun _ _ h => absurd h (by decide), interleaved_of_step rfl⟩
  have hfirst := hjoin.snoc (a := (1, .call (.create 1 none none)))
    ⟨nofun, interleaved_of_step rfl⟩
  have hsecond := hfirst.snoc (a := (0, .call (.create 2 none none)))
    ⟨nofun, interleaved_of_step rfl⟩
  exact ⟨_, hsecond, no_call_lost hsecond (by decide)⟩

/-- Process 2 finds version 0 while process 1 is still initialising, and clears
what process 1 has stored meanwhile. -/
def lateClear : List (Fin 2 × Action) :=
  [(0, .map), (1, .map), (0, .check true), (1, .check true), (0, .clear), (0, .mark),
    (0, .call (.create 1 none none)), (1, .clear)]

/-- Without the condition the tenant is gone. -/
example : ((lateClear.foldlM (act attachStep) (untouched (Fin 2))).map fun c =>
    ((c.shared.store.tenants 1).status, ((storeAfter (calls lateClear)).tenants 1).status)) =
      some (.inactive, .active) := by
  decide

end MtRdma.Ports.TenantSegment
