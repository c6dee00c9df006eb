import MtRdma.Ports.MandatoryMode

/-!
# The cgroup as the identity of a process

A process in the cgroup `rdma:/tenant<n>` is meant to be charged to tenant
`n`, whatever it writes into `RDMA_TENANT_ID`.  `get_current_tenant_id` binds
it accordingly, unless an earlier part of `/proc/self/cgroup` names another
tenant that accepts it: the search looks for `rdma:/tenant` anywhere in what
`fgets` returns.  It then looks at the environment once more when the pid is
not the one it remembers, and the later binding stands.

The text of `/proc/self/cgroup` is modelled as the kernel writes it, so that
the loop over a 512 byte buffer, the search and the conversion are part of
what is proved.
-/

namespace MtRdma.Ports.RdmaHooks

open Verified.CText
open SharedMemoryTenant

/-! ## The text of `/proc/self/cgroup` -/

/-- The path the code searches for, without the number. -/
def tenantPath : List Char := "rdma:/tenant".toList

/-- A text of `/proc/self/cgroup` that places the process in `rdma:/tenant<n>`:
a line consisting of the hierarchy number and the controllers, the path, and
the decimal digits of `n`, between any whole lines before it and any text after
it.  The line fits into the buffer. -/
structure CgroupFile (n : UInt32) where
  before : List Char
  controllers : List Char
  digits : List Char
  after : List Char
  whole_lines : before = [] ∨ before.getLast? = some '\n'
  no_slash : '/' ∉ controllers
  one_line : '\n' ∉ controllers
  some_digit : digits ≠ []
  decimal : ∀ c ∈ digits, c.isDigit = true
  value : digitsVal 0 digits = n.toNat
  fits : controllers.length + tenantPath.length + digits.length < 511

namespace CgroupFile

variable {n : UInt32} (file : CgroupFile n)

/-- The line with the path, without its newline. -/
def line : List Char := file.controllers ++ (tenantPath ++ file.digits)

def text : List Char := file.before ++ (file.line ++ '\n' :: file.after)

/-- The pieces that the loop reads before the line. -/
def earlier : List (List Char) := fgetsFrom 511 511 [] file.before

theorem newline_not_mem_line : '\n' ∉ file.line := by
  intro h
  rcases List.mem_append.mp h with h | h
  · exact file.one_line h
  · rcases List.mem_append.mp h with h | h
    · exact absurd h (by decide)
    · exact absurd (file.decimal _ h) (by decide)

/-- What the loop reads. -/
theorem fgetsAll_text :
    fgetsAll 512 file.text =
      file.earlier ++ (file.line ++ ['\n']) :: fgetsFrom 511 511 [] file.after := by
  have hlen : file.line.length < 511 := by
    have hfits := file.fits
    simp only [line, List.length_append]
    omega
  have hline := fgetsFrom_line 511 file.newline_not_mem_line file.after 511 [] hlen
  rw [List.reverse_nil, List.nil_append] at hline
  show fgetsFrom 511 511 [] file.text = _
  unfold text earlier
  rcases file.whole_lines with hnil | hend
  · rw [hnil, List.nil_append, hline]
    rfl
  · rw [fgetsFrom_append 511 _ 511 [] hend, hline]

/-- The line names tenant `n`. -/
theorem cgroupTenant_line : cgroupTenant (file.line ++ ['\n']) = n := by
  have hsplit : tenantPath = "rdma:".toList ++ '/' :: "tenant".toList := by decide
  have hfind : strstr "rdma:/tenant".toList (file.line ++ ['\n']) =
      some (tenantPath ++ (file.digits ++ ['\n'])) := by
    have hstr := strstr_append (show '/' ∉ "rdma:".toList by decide) "tenant".toList
      (file.digits ++ ['\n']) file.controllers file.no_slash
    rw [← hsplit] at hstr
    show strstr tenantPath _ = _
    unfold line
    rw [List.append_assoc, List.append_assoc]
    exact hstr
  have hdrop : (tenantPath ++ (file.digits ++ ['\n'])).drop 12 = file.digits ++ ['\n'] :=
    List.drop_left' (by decide)
  have hdigits := signedDigits_of_digits file.some_digit file.decimal
    (show Char.isDigit '\n' = false by decide) []
  have hlt : n.toNat < 2 ^ 64 := Nat.lt_of_lt_of_le n.toNat_lt (by decide)
  unfold cgroupTenant
  rw [hfind]
  simp only [hdrop, strtoul, hdigits, file.value, hlt, if_true]
  apply UInt32.toNat_inj.mp
  simp

/-- A piece of a text without the path names no tenant. -/
theorem cgroupTenant_other {text piece : List Char} (htext : ¬tenantPath <:+: text)
    (hpiece : piece ∈ fgetsFrom 511 511 [] text) : cgroupTenant piece = 0 := by
  have hpart := infix_of_mem_fgetsFrom 511 text 511 [] hpiece
  rw [List.reverse_nil, List.nil_append] at hpart
  have hnone : strstr "rdma:/tenant".toList piece = none := by
    rw [strstr_eq_none_iff]
    intro h
    exact htext (h.trans hpart)
  unfold cgroupTenant
  rw [hnone]

end CgroupFile

/-! ## The cgroup step -/

/-- The piece names a tenant that is ACTIVE. -/
def NamesActive (s : TenantSharedMemory) (piece : List Char) : Prop :=
  cgroupTenant piece ≠ 0 ∧ ActiveTenant s (cgroupTenant piece)

/-- The first piece that names an ACTIVE tenant, if there is one, names `n`. -/
def FirstNames (s : TenantSharedMemory) (n : UInt32) : List (List Char) → Prop
  | [] => True
  | piece :: rest =>
      (NamesActive s piece → cgroupTenant piece = n) ∧
        (¬NamesActive s piece → FirstNames s n rest)

theorem firstNames_of_absent (s : TenantSharedMemory) (n : UInt32) {pieces : List (List Char)}
    (h : ∀ piece ∈ pieces, cgroupTenant piece = 0) : FirstNames s n pieces := by
  induction pieces with
  | nil => trivial
  | cons piece rest ih =>
      have hnone : ¬NamesActive s piece := fun hact => hact.1 (h piece List.mem_cons_self)
      exact ⟨fun hact => absurd hact hnone,
        fun _ => ih fun other hmem => h other (List.mem_cons_of_mem piece hmem)⟩

/-- The loop binds the pid to the first ACTIVE tenant that is named, which is
`n` or one named before the line of `n`. -/
theorem bindFromCgroup_names {s : TenantSharedMemory} {pid : Int} {n : UInt32} (hne : n ≠ 0)
    (hbind : Bindable s pid n) {line : List Char} (hline : cgroupTenant line = n)
    (rest pieces : List (List Char)) :
    ∃ m, Bindable s pid m ∧ (m = n ↔ FirstNames s n pieces) ∧
      bindFromCgroup true pid (pieces ++ line :: rest) s =
        (true, (tenantBindProcess pid m s).2) := by
  induction pieces with
  | nil =>
      refine ⟨n, hbind, iff_of_true rfl trivial, ?_⟩
      rw [List.nil_append, bindFromCgroup, hline, if_pos ⟨hne, rfl⟩,
        if_pos (get_after_bind hbind).1]
  | cons piece pieces ih =>
      rw [List.cons_append, bindFromCgroup]
      by_cases hact : NamesActive s piece
      · have hpiece : Bindable s pid (cgroupTenant piece) := ⟨hact.2, hbind.2⟩
        refine ⟨cgroupTenant piece, hpiece, ?_, ?_⟩
        · exact ⟨fun heq => ⟨fun _ => heq, fun hnot => absurd hact hnot⟩, fun h => h.1 hact⟩
        · rw [if_pos ⟨hact.1, rfl⟩, if_pos (get_after_bind hpiece).1]
      · obtain ⟨m, hm, hfirst, hloop⟩ := ih
        refine ⟨m, hm, ?_, ?_⟩
        · rw [hfirst]
          exact ⟨fun h => ⟨fun h' => absurd h' hact, fun _ => h⟩, fun h => h.2 hact⟩
        · rw [← hloop]
          split
          · -- the piece names a tenant that is not ACTIVE, so that the bind fails
            rename_i hnamed
            have hnot : ¬Bindable s pid (cgroupTenant piece) := fun h => hact ⟨hnamed.1, h.1⟩
            rw [bind_failed hnot, if_neg (show ¬(-1 : Int) = 0 by decide)]
          · rfl

/-! ## The environment step -/

/-- The tenant `RDMA_TENANT_ID` names, 0 if it names none. -/
def claimedTenant (env : HookEnv) : UInt32 :=
  match env.rdmaTenantId with
  | none => 0
  | some text => (atoi text).toUInt32

theorem bindFromEnv_eq (env : HookEnv) (pid : Int) (s : TenantSharedMemory) :
    bindFromEnv env pid s =
      if claimedTenant env = 0 then s
      else (tenantBindProcess pid (claimedTenant env) s).2 := by
  unfold bindFromEnv claimedTenant
  cases env.rdmaTenantId with
  | none => rfl
  | some text =>
      by_cases hzero : (atoi text).toUInt32 = 0
      · rw [if_pos hzero]
        exact if_neg (by rw [hzero]; decide)
      · rw [if_neg hzero]
        exact if_pos (UInt32.pos_iff_ne_zero.mpr hzero)

/-- `RDMA_TENANT_ID` names an ACTIVE tenant other than `n`. -/
def NamesOther (env : HookEnv) (s : TenantSharedMemory) (n : UInt32) : Prop :=
  claimedTenant env ≠ 0 ∧ claimedTenant env ≠ n ∧ ActiveTenant s (claimedTenant env)

/-- A process bound to `m` is with `n` after the environment was looked at if
the environment names `n`, or if `m` is `n` and the environment names no other
tenant that is ACTIVE. -/
theorem get_bindFromEnv_iff (env : HookEnv) {pid : Int} {s : TenantSharedMemory} {m n : UInt32}
    (hne : n ≠ 0) (hactive : ActiveTenant s n) (hget : tenantGetProcessTenant pid s = some m) :
    tenantGetProcessTenant pid (bindFromEnv env pid s) = some n ↔
      claimedTenant env = n ∨ (¬NamesOther env s n ∧ m = n) := by
  rw [bindFromEnv_eq]
  by_cases hclaim : claimedTenant env ≠ 0 ∧ ActiveTenant s (claimedTenant env)
  · have hbound := (get_after_bind ⟨hclaim.2, .inl (mapped_of_get hget)⟩).2
    rw [if_neg hclaim.1, hbound, Option.some_inj]
    constructor
    · exact .inl
    · intro h
      by_contra hother
      exact h.elim hother fun hrest => hrest.1 ⟨hclaim.1, hother, hclaim.2⟩
  · have hkept : (if claimedTenant env = 0 then s
        else (tenantBindProcess pid (claimedTenant env) s).2) = s := by
      split
      · rfl
      · rename_i hzero
        rw [bind_failed fun h => hclaim ⟨hzero, h.1⟩]
    have hnone : ¬NamesOther env s n := fun h => hclaim ⟨h.1, h.2.2⟩
    have hclaimed : claimedTenant env ≠ n := fun heq => hclaim (heq ▸ ⟨hne, hactive⟩)
    rw [hkept, hget, Option.some_inj]
    exact ⟨fun h => .inr ⟨hnone, h⟩, fun h => (h.resolve_left hclaimed).2⟩

/-! ## Resolution in a tenant's cgroup -/

section Resolution

variable {env : HookEnv} {v : View} {n : UInt32}

/-- The view after a cgroup step that binds the process to `m`. -/
def inCgroup (v : View) (m : UInt32) : View :=
  { v with
    proc := { v.proc with tenantInitialized := true }
    tenant := (tenantBindProcess v.proc.pid m v.tenant).2 }

theorem cgroupStep_file (file : CgroupFile n) (htext : env.cgroup = some file.text) (hne : n ≠ 0)
    (hready : tenantShmReady env v.proc = true) (hbind : Bindable v.tenant v.proc.pid n) :
    ∃ m, Bindable v.tenant v.proc.pid m ∧ (m = n ↔ FirstNames v.tenant n file.earlier) ∧
      cgroupStep env v = inCgroup v m := by
  have hlines : cgroupLines env =
      file.earlier ++ (file.line ++ ['\n']) :: fgetsFrom 511 511 [] file.after := by
    unfold cgroupLines
    rw [htext]
    exact file.fgetsAll_text
  obtain ⟨m, hm, hfirst, hloop⟩ := bindFromCgroup_names hne hbind file.cgroupTenant_line
    (fgetsFrom 511 511 [] file.after) file.earlier
  refine ⟨m, hm, hfirst, ?_⟩
  unfold cgroupStep
  rw [hlines, hready, hloop]
  simp [inCgroup]

theorem getCurrentTenantId_file {m : UInt32} (hstep : cgroupStep env v = inCgroup v m) :
    getCurrentTenantId env v =
      ((tenantGetProcessTenant v.proc.pid (forkStep env (inCgroup v m)).tenant).getD 0,
        forkStep env (inCgroup v m)) := by
  have hpid : (forkStep env (inCgroup v m)).proc.pid = v.proc.pid := by
    unfold forkStep
    split <;> rfl
  unfold getCurrentTenantId
  rw [hstep]
  simp only [hpid]
  rfl

/-- Without the tenant segment nothing is found. -/
theorem getCurrentTenantId_unready (hready : tenantShmReady env v.proc = false) :
    (getCurrentTenantId env v).1 = 0 := by
  by_contra h
  rcases (resolves_iff env v).mp h with hcgroup | ⟨hinit, _⟩
  · exact absurd hcgroup.1 (by rw [hready]; decide)
  · simp [tenantShmReady, hinit] at hready

/-- The process has another pid than the one that is remembered: it was forked
since the last call. -/
def Forked (v : View) : Prop :=
  v.proc.pid ≠ v.proc.cachedPid

/-- A pid that the cgroup binds to `m` is bound to `n` after the fork step. -/
theorem get_forkStep_iff {m : UInt32} (hne : n ≠ 0) (hactive : ActiveTenant v.tenant n)
    (hm : Bindable v.tenant v.proc.pid m) :
    tenantGetProcessTenant v.proc.pid (forkStep env (inCgroup v m)).tenant = some n ↔
      (Forked v ∧ claimedTenant env = n) ∨
        (¬(Forked v ∧ NamesOther env v.tenant n) ∧ m = n) := by
  have hget := (get_after_bind hm).2
  unfold forkStep
  by_cases hfork : Forked v
  · have henv := get_bindFromEnv_iff env hne
      ((activeTenant_bind v.proc.pid m n v.tenant).mpr hactive) hget
    unfold NamesOther at henv
    rw [activeTenant_bind] at henv
    rw [if_pos (show (inCgroup v m).proc.pid ≠ (inCgroup v m).proc.cachedPid from hfork)]
    refine henv.trans ?_
    simp only [hfork, true_and]
    rfl
  · rw [if_neg (show ¬(inCgroup v m).proc.pid ≠ (inCgroup v m).proc.cachedPid from hfork)]
    simp only [hfork, false_and, false_or, not_false_eq_true, true_and]
    exact hget ▸ Option.some_inj

/-- The tenant segment can be used, and one of two: the process was forked and
`RDMA_TENANT_ID` names `n` itself; or it was not forked with another ACTIVE
tenant's number there, and no ACTIVE tenant other than `n` is named first in the
pieces that `fgets` reads before the line. -/
def CgroupStands (env : HookEnv) (v : View) (file : CgroupFile n) : Prop :=
  tenantShmReady env v.proc = true ∧
    ((Forked v ∧ claimedTenant env = n) ∨
      (¬(Forked v ∧ NamesOther env v.tenant n) ∧ FirstNames v.tenant n file.earlier))

/-- `get_current_tenant_id` returns `n` and leaves the pid bound to `n`. -/
def ChargedTo (env : HookEnv) (v : View) (n : UInt32) : Prop :=
  (getCurrentTenantId env v).1 = n ∧
    tenantGetProcessTenant v.proc.pid (getCurrentTenantId env v).2.tenant = some n

theorem chargedTo_iff (file : CgroupFile n) (htext : env.cgroup = some file.text)
    (hne : n ≠ 0) (hbind : Bindable v.tenant v.proc.pid n) :
    ChargedTo env v n ↔ CgroupStands env v file := by
  unfold ChargedTo CgroupStands
  cases hready : tenantShmReady env v.proc with
  | false =>
      rw [getCurrentTenantId_unready hready]
      exact ⟨fun h => absurd h.1.symm hne, fun h => absurd h.1 (by decide)⟩
  | true =>
      obtain ⟨m, hm, hfirst, hstep⟩ := cgroupStep_file file htext hne hready hbind
      rw [getCurrentTenantId_file hstep, ← hfirst, ← get_forkStep_iff hne hbind.1 hm]
      constructor
      · intro h
        exact ⟨rfl, h.2⟩
      · intro h
        exact ⟨by rw [h.2]; rfl, h.2⟩

/-- **The cgroup decides** exactly when the tenant segment can be used, no other
ACTIVE tenant is named before the line, and the process has not just been forked
with another ACTIVE tenant's number in its environment; a process forked with the
right number there is charged right in any case.  Two environments for which that
holds, and which differ in `RDMA_TENANT_ID` only, are charged alike. -/
theorem cgroup_decides_iff (file : CgroupFile n) (htext : env.cgroup = some file.text)
    (hne : n ≠ 0) (hbind : Bindable v.tenant v.proc.pid n) :
    (ChargedTo env v n ↔ CgroupStands env v file) ∧
      ∀ claimed, CgroupStands env v file →
        CgroupStands { env with rdmaTenantId := claimed } v file →
        (getCurrentTenantId env v).1 =
          (getCurrentTenantId { env with rdmaTenantId := claimed } v).1 := by
  refine ⟨chargedTo_iff file htext hne hbind, ?_⟩
  intro claimed hstands hstands'
  have hcharged := (chargedTo_iff file htext hne hbind).mpr hstands
  have htext' : ({ env with rdmaTenantId := claimed } : HookEnv).cgroup = some file.text := htext
  have hcharged' := (chargedTo_iff file htext' hne hbind).mpr hstands'
  exact hcharged.1.trans hcharged'.1.symm

end Resolution

/-! ## A forked process -/

/-- The process sits in `rdma:/tenant1`, in the hierarchy with number 9, after
a line about another hierarchy. -/
def cgroupFileOne : CgroupFile 1 where
  before := "12:cpuset:/\n".toList
  controllers := ['9', ':']
  digits := ['1']
  after := []
  whole_lines := .inr (by decide)
  no_slash := by decide
  one_line := by decide
  some_digit := by decide
  decimal := by
    intro c hc
    rw [List.mem_singleton.mp hc]
    decide
  value := by decide
  fits := by decide

theorem cgroupFileOne_first (s : TenantSharedMemory) :
    FirstNames s 1 cgroupFileOne.earlier := by
  refine firstNames_of_absent s 1 fun piece hpiece => ?_
  have hother : ¬tenantPath <:+: cgroupFileOne.before := by decide
  exact CgroupFile.cgroupTenant_other hother hpiece

/-- In that cgroup, with `RDMA_TENANT_ID` set to 2. -/
def spoofingEnv : HookEnv :=
  { quietEnv with cgroup := some cgroupFileOne.text, rdmaTenantId := some ['2'] }

/-- Process 100 itself. -/
def parentView : View := ⟨settledProcess 100, SharedMemory.zeroed, twoTenants⟩

/-- A process with the same pid that was forked from process 99. -/
def forkedView : View :=
  ⟨{ settledProcess 100 with cachedPid := 99 }, SharedMemory.zeroed, twoTenants⟩

/-- A process that was not forked is charged to the tenant of its cgroup. -/
theorem unforked_spoof_fails : ChargedTo spoofingEnv parentView 1 :=
  (cgroup_decides_iff cgroupFileOne rfl (by decide) twoTenants_bindable).1.mpr
    ⟨rfl, .inr ⟨fun h => h.1 rfl, cgroupFileOne_first twoTenants⟩⟩

/-- On the first call after a fork the same environment is charged to
tenant 2. -/
theorem forked_spoof_succeeds :
    spoofingEnv.cgroup = some cgroupFileOne.text ∧ Bindable forkedView.tenant 100 1 ∧
      (getCurrentTenantId spoofingEnv forkedView).1 = 2 ∧
      tenantGetProcessTenant 100 (getCurrentTenantId spoofingEnv forkedView).2.tenant = some 2 := by
  have hbind : Bindable forkedView.tenant forkedView.proc.pid 1 := twoTenants_bindable
  obtain ⟨m, hm, _, hstep⟩ := cgroupStep_file cgroupFileOne
    (show spoofingEnv.cgroup = _ from rfl) (by decide) rfl hbind
  have hclaim : claimedTenant spoofingEnv = 2 := by decide
  have hget : tenantGetProcessTenant 100 (forkStep spoofingEnv (inCgroup forkedView m)).tenant =
      some 2 :=
    (get_forkStep_iff (by decide) twoTenants_active hm).mpr
      (.inl ⟨show (100 : Int) ≠ 99 by decide, hclaim⟩)
  have hresolved := getCurrentTenantId_file hstep
  refine ⟨rfl, hbind, ?_, ?_⟩
  · rw [hresolved]
    exact congrArg (fun o : Option UInt32 => o.getD 0) hget
  · rw [hresolved]
    exact hget

end MtRdma.Ports.RdmaHooks
