import MtRdma.Verified.KeyWalk

/-!
# Listing the tenants of the eBPF map (`ebpf/ebpf_enhanced_monitor.c`)

`ebpf_get_all_tenant_resources` walks over the keys of `tenant_resources` and
copies the entries it finds.  The key it read last is kept in `prev_key`,
where `0` also stands for "none yet".  Tenant 0 is the default tenant, so `0`
is a key like any other: once the loop has read it, it asks for the first key
again and reads the same entries over and over until `max_count` is reached.

The listing is right exactly if tenant 0 has no entry, or is the last one
there is room for (`all_tenants_iff`).
-/

namespace MtRdma.Ports.TenantEnumeration

open Verified.KeyWalk

/-! ## The map and the loop -/

/-- `enhanced_resource_usage_t`. -/
structure EnhancedResourceUsage where
  qpCount : Int32
  mrCount : Int32
  cqCount : Int32
  pdCount : Int32
  memoryUsed : UInt64
  totalQpCreates : UInt64
  totalQpDestroys : UInt64
  totalMrRegs : UInt64
  totalMrDeregs : UInt64
  deriving Repr, DecidableEq

/-- `perf_stats_t`. -/
structure PerfStats where
  createQpLatTotal : UInt64
  regMrLatTotal : UInt64
  createQpCount : UInt64
  regMrCount : UInt64
  deriving Repr, DecidableEq

/-- `tenant_resource_t`. -/
structure TenantResource where
  tenantId : UInt32
  usage : EnhancedResourceUsage
  perf : PerfStats
  deriving Repr, DecidableEq

/-- The map `tenant_resources` while nobody writes to it: its keys in the order
in which the kernel hands them out, and the entry of each. -/
structure TenantMap where
  keys : List UInt32
  nodup : keys.Nodup
  resource : UInt32 → TenantResource

/-- `bpf_map_get_next_key`; the argument `NULL` is `none`, and so is the return
value `-1`. -/
def bpfMapGetNextKey (map : TenantMap) (key : Option UInt32) : Option UInt32 :=
  next map.keys key

/-- `bpf_map_lookup_elem`. -/
def bpfMapLookupElem (map : TenantMap) (key : UInt32) : Option TenantResource :=
  if key ∈ map.keys then some (map.resource key) else none

/-- `prev_key == 0 ? NULL : &prev_key`. -/
def keyArgument (prevKey : UInt32) : Option UInt32 :=
  if prevKey = 0 then none else some prevKey

/-- The loop, with the entries copied so far; their number is `count`.  `none`
means that it is still running when the fuel is used up. -/
def enumerate (map : TenantMap) (maxCount : Int) :
    Nat → UInt32 → List TenantResource → Option (List TenantResource)
  | 0, _, _ => none
  | fuel + 1, prevKey, resources =>
      if (resources.length : Int) < maxCount then
        match bpfMapGetNextKey map (keyArgument prevKey) with
        | none => some resources
        | some key =>
            match bpfMapLookupElem map key with
            | some res => enumerate map maxCount fuel key (resources ++ [res])
            | none => enumerate map maxCount fuel key resources
      else some resources

/-- `ebpf_get_all_tenant_resources`: the return value and what was copied.
`given` says that the caller passed an array. -/
def ebpfGetAllTenantResources (fuel : Nat) (fd : Int) (map : TenantMap) (given : Bool)
    (maxCount : Int) : Option (Int × List TenantResource) :=
  if !given || decide (maxCount ≤ 0) then some (-1, [])
  else if fd < 0 then some (0, [])
  else (enumerate map maxCount fuel 0 []).map fun resources =>
    ((resources.length : Int), resources)

/-! ## The loop is a walk over the keys -/

/-- Every key the map hands out can be looked up. -/
theorem lookup_of_next {map : TenantMap} {cursor : Option UInt32} {key : UInt32}
    (h : bpfMapGetNextKey map cursor = some key) :
    bpfMapLookupElem map key = some (map.resource key) :=
  if_pos (mem_of_next h)

/-- The loop ends after at most one round more than there is room for, with the
entries of the keys it has walked over. -/
theorem enumerate_eq (map : TenantMap) (maxCount : Int) (fuel : Nat) (prevKey : UInt32)
    (resources : List TenantResource) (hfuel : (maxCount - resources.length).toNat < fuel) :
    enumerate map maxCount fuel prevKey resources =
      some (resources ++ (walk map.keys keyArgument (maxCount - resources.length).toNat
        (keyArgument prevKey)).map map.resource) := by
  induction fuel generalizing prevKey resources with
  | zero => omega
  | succ fuel ih =>
      rw [enumerate]
      by_cases hroom : (resources.length : Int) < maxCount
      · rw [if_pos hroom]
        obtain ⟨n, hn⟩ : ∃ n, (maxCount - resources.length).toNat = n + 1 :=
          ⟨(maxCount - resources.length).toNat - 1, by omega⟩
        rw [hn]
        cases hnext : bpfMapGetNextKey map (keyArgument prevKey) with
        | none =>
            rw [walk_of_next_none (n + 1) hnext, List.map_nil, List.append_nil]
        | some key =>
            have hlength : ((resources ++ [map.resource key]).length : Int) =
                resources.length + 1 := by
              rw [List.length_append, List.length_singleton]
              rfl
            have hleft : (maxCount - (resources ++ [map.resource key]).length).toNat = n := by
              rw [hlength]
              omega
            dsimp only
            rw [walk_succ_of_next n hnext, lookup_of_next hnext]
            dsimp only
            rw [ih key (resources ++ [map.resource key]) (by omega), hleft, List.append_assoc]
            rfl
      · have hfull : (maxCount - resources.length).toNat = 0 := by omega
        rw [if_neg hroom, hfull]
        exact congrArg some (List.append_nil resources).symm

/-- What the function returns on an open map. -/
theorem getAllTenantResources_eq {fuel : Nat} {fd maxCount : Int} (map : TenantMap)
    (hfd : 0 ≤ fd) (hpos : 0 < maxCount) (hfuel : maxCount < fuel) :
    ebpfGetAllTenantResources fuel fd map true maxCount =
      some (((walk map.keys keyArgument maxCount.toNat none).length : Int),
        (walk map.keys keyArgument maxCount.toNat none).map map.resource) := by
  have hcount : (maxCount - ([] : List TenantResource).length).toNat = maxCount.toNat := by
    exact congrArg Int.toNat (Int.sub_zero maxCount)
  have hloop := enumerate_eq map maxCount fuel 0 [] (by omega)
  rw [hcount, List.nil_append] at hloop
  have hguard : ¬((!true || decide (maxCount ≤ 0)) = true) := by
    rw [Bool.not_true, Bool.false_or, decide_eq_true_iff]
    omega
  rw [ebpfGetAllTenantResources, if_neg hguard, if_neg (by omega), hloop, Option.map_some,
    List.length_map]
  rfl

/-! ## When the listing is right -/

/-- The entries of as many keys as there are, or as there is room for, and of
no key twice. -/
def ListsTenants (map : TenantMap) (maxCount : Int) (answer : Int × List TenantResource) : Prop :=
  ∃ listed : List UInt32, listed.Nodup ∧ (∀ key ∈ listed, key ∈ map.keys) ∧
    (listed.length : Int) = min maxCount map.keys.length ∧
    answer = ((listed.length : Int), listed.map map.resource)

/-- For these keys the call returns a listing, whatever the entries are. -/
def AlwaysLists (keys : List UInt32) (hnodup : keys.Nodup) (fd maxCount : Int) : Prop :=
  ∀ (resource : UInt32 → TenantResource) (fuel : Nat), maxCount < fuel →
    ∃ answer,
      ebpfGetAllTenantResources fuel fd ⟨keys, hnodup, resource⟩ true maxCount = some answer ∧
        ListsTenants ⟨keys, hnodup, resource⟩ maxCount answer

/-- Every key but `0` is remembered. -/
theorem keyArgument_of_ne {key : UInt32} (h : key ≠ 0) : keyArgument key = some key :=
  if_neg h

/-- As long as tenant 0 has not been passed, the walk reads the first keys. -/
theorem walk_eq_take {keys : List UInt32} (n : Nat) (hnodup : keys.Nodup)
    (hzero : 0 ∉ keys.take (n - 1)) : walk keys keyArgument n none = keys.take n := by
  apply walk_start n hnodup
  intro key hkey
  apply keyArgument_of_ne
  intro heq
  exact hzero (heq ▸ hkey)

/-- Once tenant 0 has been read and there is room for one more, the first key
is read a second time. -/
theorem walk_repeats {before after : List UInt32} (n : Nat) (hzero : 0 ∉ before)
    (hnodup : (before ++ 0 :: after).Nodup) :
    ¬(walk (before ++ 0 :: after) keyArgument (before.length + 1 + (n + 1)) none).Nodup := by
  have hfirst : walk (before ++ 0 :: after) keyArgument (before.length + 1) none =
      before ++ [0] := by
    have htake : (before ++ 0 :: after).take before.length = before := List.take_left
    rw [walk_eq_take _ hnodup (by rw [Nat.add_sub_cancel, htake]; exact hzero),
      List.take_length_add_append]
    rfl
  rw [walk_add (n + 1) hfirst]
  show ¬(before ++ 0 :: walk (before ++ 0 :: after) keyArgument (n + 1) none).Nodup
  cases before with
  | nil =>
      rw [walk_succ_of_next (k := 0) n rfl]
      intro hlist
      exact (List.nodup_cons.mp hlist).1 List.mem_cons_self
  | cons key before =>
      rw [walk_succ_of_next (k := key) n rfl]
      intro hlist
      apply (List.nodup_cons.mp hlist).1
      exact List.mem_append_right before (List.mem_cons_of_mem 0 List.mem_cons_self)

/-- The entry that holds nothing but the tenant's own number. -/
def blankResource (key : UInt32) : TenantResource where
  tenantId := key
  usage := ⟨0, 0, 0, 0, 0, 0, 0, 0, 0⟩
  perf := ⟨0, 0, 0, 0⟩

theorem blankResource_injective : Function.Injective blankResource :=
  fun _ _ h => congrArg TenantResource.tenantId h

/-- The call returns a listing exactly if tenant 0 is not among the keys or nothing
is read after it.  That it returns at all needs no condition
(`getAllTenantResources_eq`). -/
theorem all_tenants_iff (keys : List UInt32) (hnodup : keys.Nodup) {fd maxCount : Int}
    (hfd : 0 ≤ fd) (hpos : 0 < maxCount) :
    AlwaysLists keys hnodup fd maxCount ↔ (0 ∈ keys → maxCount ≤ keys.idxOf 0 + 1) := by
  constructor
  · intro hlists hmem
    by_contra hroom
    obtain ⟨before, after, rfl, hzero⟩ := List.eq_append_cons_of_mem hmem
    have hposition : (before ++ 0 :: after).idxOf 0 = before.length := by
      rw [List.idxOf_append_of_notMem hzero, List.idxOf_cons_self, Nat.add_zero]
    obtain ⟨n, hn⟩ : ∃ n, maxCount.toNat = before.length + 1 + (n + 1) :=
      ⟨maxCount.toNat - before.length - 2, by omega⟩
    -- entries that tell the tenants apart show which keys were read
    obtain ⟨answer, hanswer, listed, hlisted, -, -, rfl⟩ :=
      hlists blankResource (maxCount.toNat + 1) (by omega)
    rw [getAllTenantResources_eq _ hfd hpos (by omega), hn] at hanswer
    have hsame := List.map_injective_iff.mpr blankResource_injective
      (Prod.mk.inj (Option.some.inj hanswer)).2
    exact walk_repeats n hzero hnodup (hsame ▸ hlisted)
  · intro hlast resource fuel hfuel
    refine ⟨_, getAllTenantResources_eq ⟨keys, hnodup, resource⟩ hfd hpos hfuel, ?_⟩
    have hzero : 0 ∉ keys.take (maxCount.toNat - 1) := by
      intro hmem
      have hpassed := (List.mem_take_iff_idxOf_lt (List.mem_of_mem_take hmem)).mp hmem
      have hposition := hlast (List.mem_of_mem_take hmem)
      omega
    show ListsTenants _ _ (((walk keys keyArgument maxCount.toNat none).length : Int),
      (walk keys keyArgument maxCount.toNat none).map resource)
    rw [walk_eq_take _ hnodup hzero]
    refine ⟨keys.take maxCount.toNat, hnodup.sublist (List.take_sublist _ _),
      fun key hkey => List.mem_of_mem_take hkey, ?_, rfl⟩
    show ((keys.take maxCount.toNat).length : Int) = min maxCount keys.length
    rw [List.length_take]
    omega

/-- Tenant 0 at the end of an array that has room for two. -/
theorem all_tenants_five_zero : AlwaysLists [5, 0] (by decide) 3 2 :=
  (all_tenants_iff [5, 0] (by decide) (by decide) (by decide)).mpr (by decide)

/-- Tenant 0 in front of tenant 5: its entry is returned twice, and that of
tenant 5 not at all. -/
theorem default_tenant_listed_twice :
    ebpfGetAllTenantResources 3 3 ⟨[0, 5], by decide, blankResource⟩ true 2 =
        some (2, [blankResource 0, blankResource 0]) ∧
      ¬ListsTenants ⟨[0, 5], by decide, blankResource⟩ 2
        (2, [blankResource 0, blankResource 0]) := by
  refine ⟨by decide, ?_⟩
  rintro ⟨listed, hlisted, -, -, heq⟩
  have hsame : [0, 0] = listed :=
    List.map_injective_iff.mpr blankResource_injective (Prod.mk.inj heq).2
  rw [← hsame] at hlisted
  exact absurd hlisted (by decide)

end MtRdma.Ports.TenantEnumeration
