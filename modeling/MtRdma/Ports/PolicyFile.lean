import MtRdma.Ports.DynamicPolicy

/-!
# The policy configuration and its file (`dynamic_policy_manager.c`)

`DynamicPolicy` keeps the limits of the five rules, which is all the shared
segment sees of a policy.  This module has the whole record
`dynamic_policy_config_t` and the two functions that move it to and from a
text file: one line `key value` for each of seven numbers, read line by line
with `fgets` and `sscanf`.

A saved file sets exactly these seven numbers when it is loaded, and every
other field stays as it was in force.  The memory limit is written in MiB, so
it survives if it is a whole number of them and the number fits `%u`.
-/

namespace MtRdma.Ports.PolicyFile

open Verified.CText
open DynamicPolicy (PolicyResource ResourceLimit PolicyConfig)

/-! ## The configuration -/

/-- `enum policy_type`. -/
inductive PolicyType where
  | static
  | dynamic
  | adaptive
  deriving Repr, DecidableEq

/-- `policy_rule_t`. -/
structure PolicyRule where
  ruleId : UInt32
  type : PolicyType
  resource : PolicyResource
  limit : ResourceLimit
  priority : UInt32
  createdAt : Int
  expiresAt : Int
  enabled : Bool
  deriving Repr, DecidableEq

/-- `dynamic_policy_config_t`.  The watermarks are kept as the bits of the
`float`. -/
structure DynamicPolicyConfig where
  qpPolicy : PolicyRule
  mrPolicy : PolicyRule
  cqPolicy : PolicyRule
  pdPolicy : PolicyRule
  memoryPolicy : PolicyRule
  autoAdjust : Bool
  adjustInterval : UInt32
  highWatermark : UInt32
  lowWatermark : UInt32
  deriving Repr, DecidableEq

/-- The limits of the five rules. -/
def DynamicPolicyConfig.limits (config : DynamicPolicyConfig) : PolicyConfig where
  qpPolicy := config.qpPolicy.limit
  mrPolicy := config.mrPolicy.limit
  cqPolicy := config.cqPolicy.limit
  pdPolicy := config.pdPolicy.limit
  memoryPolicy := config.memoryPolicy.limit

/-- The number of an `enum resource_type` value. -/
def resourceCode : PolicyResource → UInt32
  | .qp => 0
  | .mr => 1
  | .cq => 2
  | .pd => 3
  | .memory => 4
  | .other code => UInt32.ofNat code

/-- `init_default_rule`; `now` is the time it reads. -/
def initDefaultRule (now : Int) (resource : PolicyResource) : PolicyRule where
  ruleId := resourceCode resource
  type := .static
  resource := resource
  limit := ⟨0, 0, 0⟩
  priority := 1
  createdAt := now
  expiresAt := 0
  enabled := true

/-- `set_default_config`; the clock is read once for each rule.  The
watermarks are `0.8f` and `0.2f`. -/
def setDefaultConfig (now : PolicyResource → Int) : DynamicPolicyConfig where
  qpPolicy := { initDefaultRule (now .qp) .qp with limit := ⟨100, 1000, 0⟩ }
  mrPolicy := { initDefaultRule (now .mr) .mr with limit := ⟨1000, 10000, 0⟩ }
  cqPolicy := { initDefaultRule (now .cq) .cq with limit := ⟨100, 1000, 0⟩ }
  pdPolicy := { initDefaultRule (now .pd) .pd with limit := ⟨100, 1000, 0⟩ }
  memoryPolicy :=
    { initDefaultRule (now .memory) .memory with limit := ⟨0, 0, 10 * 1024 * 1024 * 1024⟩ }
  autoAdjust := false
  adjustInterval := 60
  highWatermark := 0x3F4CCCCD
  lowWatermark := 0x3E4CCCCD

/-! ## Saving -/

/-- One line of the file, without the newline: a key and a number. -/
def policyLine (key : List Char) (value : Nat) : List Char := key ++ ' ' :: decimal value

/-- The lines that `dynamic_policy_save_config` prints. -/
def policyLines (config : DynamicPolicyConfig) : List (List Char) :=
  ["# RDMA Dynamic Policy Configuration".toList,
    policyLine "max_qp_per_process".toList config.qpPolicy.limit.maxPerProcess.toNat,
    policyLine "max_global_qp".toList config.qpPolicy.limit.maxGlobal.toNat,
    policyLine "max_mr_per_process".toList config.mrPolicy.limit.maxPerProcess.toNat,
    policyLine "max_global_mr".toList config.mrPolicy.limit.maxGlobal.toNat,
    policyLine "max_memory_mb".toList
      (config.memoryPolicy.limit.maxMemory / (1024 * 1024)).toNat,
    policyLine "auto_adjust".toList (if config.autoAdjust then 1 else 0),
    policyLine "adjust_interval".toList config.adjustInterval.toNat]

/-- `dynamic_policy_save_config`: the return value and the text of the file, if
it could be opened. -/
def dynamicPolicySaveConfig (opened : Bool) (config : DynamicPolicyConfig) :
    Int × Option (List Char) :=
  if opened then (0, some ((policyLines config).flatMap (· ++ ['\n']))) else (-1, none)

/-! ## Loading -/

/-- The key and the number of a line, if it is neither a comment nor empty and
`sscanf(line, "%63s %u", key, &val)` finds both. -/
def policyEntry (line : List Char) : Option (List Char × UInt32) :=
  if line.head? = some '#' ∨ line.head? = some '\n' then none
  else
    match scanfWord 63 line with
    | none => none
    | some (key, rest) => (scanfUnsigned rest).map fun val => (key, val)

/-- The chain of key comparisons. -/
def applyEntry (config : DynamicPolicyConfig) (entry : List Char × UInt32) :
    DynamicPolicyConfig :=
  if entry.1 = "max_qp_per_process".toList then
    { config with qpPolicy.limit.maxPerProcess := entry.2 }
  else if entry.1 = "max_global_qp".toList then
    { config with qpPolicy.limit.maxGlobal := entry.2 }
  else if entry.1 = "max_mr_per_process".toList then
    { config with mrPolicy.limit.maxPerProcess := entry.2 }
  else if entry.1 = "max_global_mr".toList then
    { config with mrPolicy.limit.maxGlobal := entry.2 }
  else if entry.1 = "max_memory_mb".toList then
    { config with memoryPolicy.limit.maxMemory := entry.2.toUInt64 * 1024 * 1024 }
  else if entry.1 = "auto_adjust".toList then
    { config with autoAdjust := entry.2 ≠ 0 }
  else if entry.1 = "adjust_interval".toList then
    { config with adjustInterval := entry.2 }
  else config

/-- One iteration of the loop over the lines. -/
def loadLine (config : DynamicPolicyConfig) (line : List Char) : DynamicPolicyConfig :=
  match policyEntry line with
  | none => config
  | some entry => applyEntry config entry

/-- `dynamic_policy_load_config`; `file` is `none` if it cannot be opened. -/
def dynamicPolicyLoadConfig (file : Option (List Char)) (config : DynamicPolicyConfig) :
    Int × DynamicPolicyConfig :=
  match file with
  | none => (-1, config)
  | some text => (0, (fgetsAll 256 text).foldl loadLine config)

/-- The entries of a file, in order. -/
def fileEntries (text : List Char) : List (List Char × UInt32) :=
  (fgetsAll 256 text).filterMap policyEntry

/-- Lines without an entry change nothing. -/
theorem foldl_loadLine (lines : List (List Char)) :
    ∀ config, lines.foldl loadLine config =
      (lines.filterMap policyEntry).foldl applyEntry config := by
  induction lines with
  | nil => intro config; rfl
  | cons line lines ih =>
      intro config
      rw [List.foldl_cons, ih, List.filterMap_cons, loadLine]
      cases policyEntry line with
      | none | some => rfl

theorem load_eq_foldl (text : List Char) (config : DynamicPolicyConfig) :
    dynamicPolicyLoadConfig (some text) config =
      (0, (fileEntries text).foldl applyEntry config) :=
  congrArg (Prod.mk 0) (foldl_loadLine (fgetsAll 256 text) config)

/-! ## Printed lines -/

/-- A key that `%63s` reads whole and that does not make its line a comment. -/
structure PlainKey (key : List Char) : Prop where
  nonempty : key ≠ []
  noSpace : ∀ c ∈ key, isSpace c = false
  fits : key.length ≤ 63
  noComment : '#' ∉ key

theorem policyEntry_policyLine {key : List Char} (hkey : PlainKey key) {value : Nat}
    (hvalue : value < 2 ^ 32) :
    policyEntry (policyLine key value ++ ['\n']) = some (key, UInt32.ofNat value) := by
  have hline : policyLine key value ++ ['\n'] = key ++ ' ' :: (decimal value ++ ['\n']) := by
    simp [policyLine]
  have hscan : scanfWord 63 (key ++ ' ' :: (decimal value ++ ['\n'])) =
      some (key, ' ' :: (decimal value ++ ['\n'])) :=
    scanfWord_append hkey.nonempty hkey.noSpace hkey.fits (by decide) _
  have htail : NoDigit ['\n'] := by
    intro c hc
    obtain rfl : '\n' = c := Option.some.inj hc
    decide
  have hhead : ¬((key ++ ' ' :: (decimal value ++ ['\n'])).head? = some '#' ∨
      (key ++ ' ' :: (decimal value ++ ['\n'])).head? = some '\n') := by
    cases hk : key with
    | nil => exact absurd hk hkey.nonempty
    | cons c rest =>
        have hmem : c ∈ key := hk ▸ List.mem_cons_self
        rw [List.cons_append, List.head?_cons, Option.some.injEq, Option.some.injEq]
        rintro (rfl | rfl)
        · exact hkey.noComment hmem
        · exact absurd (hkey.noSpace _ hmem) (by decide)
  rw [hline, policyEntry, if_neg hhead, hscan]
  simp only [scanfUnsigned_decimal hvalue htail]
  rfl

theorem length_policyLine {key : List Char} (hkey : PlainKey key) {value : Nat}
    (hvalue : value < 2 ^ 32) : (policyLine key value).length < 255 := by
  have hfits := hkey.fits
  have hdigits : (decimal value).length ≤ 10 :=
    (Nat.length_toDigits_le_iff (by decide) (by decide)).mpr (by omega)
  simp only [policyLine, List.length_append, List.length_cons]
  omega

theorem newline_not_mem_policyLine {key : List Char} (hkey : PlainKey key) (value : Nat) :
    '\n' ∉ policyLine key value := by
  intro hmem
  rcases List.mem_append.mp hmem with hmem | hmem
  · exact absurd (hkey.noSpace _ hmem) (by decide)
  · rcases List.mem_cons.mp hmem with hspace | hmem
    · exact absurd hspace (by decide)
    · exact absurd (isDigit_of_mem_decimal hmem) (by decide)

/-- A header line and lines of plain keys are read back as the list of their
keys and numbers. -/
theorem fileEntries_policyLines {header : List Char} (hheader : header.head? = some '#')
    (hnewline : '\n' ∉ header) (hlength : header.length < 255)
    {settings : List (List Char × Nat)}
    (hsettings : ∀ e ∈ settings, PlainKey e.1 ∧ e.2 < 2 ^ 32) :
    fileEntries ((header :: settings.map fun e => policyLine e.1 e.2).flatMap (· ++ ['\n'])) =
      settings.map fun e => (e.1, UInt32.ofNat e.2) := by
  have hlines : ∀ line ∈ header :: settings.map fun e => policyLine e.1 e.2,
      '\n' ∉ line ∧ line.length < 256 - 1 := by
    intro line hline
    rcases List.mem_cons.mp hline with rfl | hline
    · exact ⟨hnewline, hlength⟩
    · obtain ⟨e, he, rfl⟩ := List.mem_map.mp hline
      obtain ⟨hkey, hvalue⟩ := hsettings e he
      exact ⟨newline_not_mem_policyLine hkey e.2, length_policyLine hkey hvalue⟩
  have hcomment : policyEntry (header ++ ['\n']) = none := by
    cases header with
    | nil => cases hheader
    | cons c header => exact if_pos (.inl hheader)
  rw [fileEntries, fgetsAll_lines hlines, List.map_cons, List.filterMap_cons, hcomment]
  clear hlines
  induction settings with
  | nil => rfl
  | cons e settings ih =>
      obtain ⟨hkey, hvalue⟩ := hsettings e List.mem_cons_self
      have hrest := ih fun e' he' => hsettings e' (List.mem_cons_of_mem e he')
      simp only [List.map_cons, List.filterMap_cons, policyEntry_policyLine hkey hvalue]
      exact congrArg (List.cons _) hrest

/-! ## The seven numbers -/

/-- The numbers the file holds. -/
inductive PolicyKey where
  | maxQpPerProcess
  | maxGlobalQp
  | maxMrPerProcess
  | maxGlobalMr
  | maxMemoryMb
  | autoAdjust
  | adjustInterval
  deriving Repr, DecidableEq

namespace PolicyKey

/-- The keys, in the order of the file. -/
def all : List PolicyKey :=
  [maxQpPerProcess, maxGlobalQp, maxMrPerProcess, maxGlobalMr, maxMemoryMb, autoAdjust,
    adjustInterval]

def text : PolicyKey → List Char
  | maxQpPerProcess => "max_qp_per_process".toList
  | maxGlobalQp => "max_global_qp".toList
  | maxMrPerProcess => "max_mr_per_process".toList
  | maxGlobalMr => "max_global_mr".toList
  | maxMemoryMb => "max_memory_mb".toList
  | autoAdjust => "auto_adjust".toList
  | adjustInterval => "adjust_interval".toList

/-- The number that is printed for the key. -/
def value (config : DynamicPolicyConfig) : PolicyKey → Nat
  | maxQpPerProcess => config.qpPolicy.limit.maxPerProcess.toNat
  | maxGlobalQp => config.qpPolicy.limit.maxGlobal.toNat
  | maxMrPerProcess => config.mrPolicy.limit.maxPerProcess.toNat
  | maxGlobalMr => config.mrPolicy.limit.maxGlobal.toNat
  | maxMemoryMb => (config.memoryPolicy.limit.maxMemory / (1024 * 1024)).toNat
  | autoAdjust => if config.autoAdjust then 1 else 0
  | adjustInterval => config.adjustInterval.toNat

/-- What a number that was read for the key does. -/
def set (config : DynamicPolicyConfig) (val : UInt32) : PolicyKey → DynamicPolicyConfig
  | maxQpPerProcess => { config with qpPolicy.limit.maxPerProcess := val }
  | maxGlobalQp => { config with qpPolicy.limit.maxGlobal := val }
  | maxMrPerProcess => { config with mrPolicy.limit.maxPerProcess := val }
  | maxGlobalMr => { config with mrPolicy.limit.maxGlobal := val }
  | maxMemoryMb =>
      { config with memoryPolicy.limit.maxMemory := val.toUInt64 * 1024 * 1024 }
  | autoAdjust => { config with autoAdjust := val ≠ 0 }
  | adjustInterval => { config with adjustInterval := val }

theorem mem_all (key : PolicyKey) : key ∈ all := by
  cases key <;> decide

theorem text_injective {key key' : PolicyKey} (h : key.text = key'.text) : key = key' := by
  have hnodup : (all.map text).Nodup := by decide
  exact List.inj_on_of_nodup_map hnodup key.mem_all key'.mem_all h

/-- The chain of comparisons finds the key. -/
theorem applyEntry_text (config : DynamicPolicyConfig) (key : PolicyKey) (val : UInt32) :
    applyEntry config (key.text, val) = key.set config val := by
  cases key <;> rfl

theorem plain (key : PolicyKey) : PlainKey key.text := by
  have hchars : (key.text.all fun c => !isSpace c && c != '#') = true := by
    cases key <;> decide
  have hlength : 0 < key.text.length ∧ key.text.length ≤ 63 := by
    cases key <;> decide
  have hchar : ∀ c ∈ key.text, isSpace c = false ∧ c ≠ '#' := by
    simpa using hchars
  refine ⟨List.ne_nil_of_length_pos hlength.1, fun c hc => (hchar c hc).1, hlength.2, ?_⟩
  intro hcomment
  exact (hchar '#' hcomment).2 rfl

/-- A line with any other key is ignored. -/
theorem applyEntry_cases (config : DynamicPolicyConfig) (entry : List Char × UInt32) :
    (∃ key : PolicyKey, entry.1 = key.text ∧ applyEntry config entry = key.set config entry.2) ∨
      ((∀ key : PolicyKey, entry.1 ≠ key.text) ∧ applyEntry config entry = config) := by
  by_cases hkey : ∃ key : PolicyKey, entry.1 = key.text
  · obtain ⟨key, hname⟩ := hkey
    refine .inl ⟨key, hname, ?_⟩
    rw [← applyEntry_text, ← hname]
  · rw [not_exists] at hkey
    refine .inr ⟨hkey, ?_⟩
    calc applyEntry config entry
      _ = _ := if_neg (hkey maxQpPerProcess)
      _ = _ := if_neg (hkey maxGlobalQp)
      _ = _ := if_neg (hkey maxMrPerProcess)
      _ = _ := if_neg (hkey maxGlobalMr)
      _ = _ := if_neg (hkey maxMemoryMb)
      _ = _ := if_neg (hkey autoAdjust)
      _ = config := if_neg (hkey adjustInterval)

end PolicyKey

/-! ## The last line for a key counts -/

/-- The number in the last entry for `key`. -/
def lastValue (key : PolicyKey) : List (List Char × UInt32) → Option UInt32
  | [] => none
  | entry :: rest =>
      match lastValue key rest with
      | some val => some val
      | none => if entry.1 = key.text then some entry.2 else none

/-- A field that only `key` writes ends up with the last number for `key`. -/
theorem get_foldl_applyEntry {β : Type} {f : DynamicPolicyConfig → β} {put : UInt32 → β}
    {key : PolicyKey} (hset : ∀ config val, f (key.set config val) = put val)
    (hframe : ∀ other : PolicyKey, other ≠ key →
      ∀ config val, f (other.set config val) = f config)
    (entries : List (List Char × UInt32)) :
    ∀ config, f (entries.foldl applyEntry config) =
      ((lastValue key entries).map put).getD (f config) := by
  induction entries with
  | nil => intro config; rfl
  | cons entry entries ih =>
      intro config
      rw [List.foldl_cons, ih, lastValue]
      cases lastValue key entries with
      | some val => rfl
      | none =>
          -- the entry itself decides
          simp only [Option.map_none, Option.getD_none]
          rcases PolicyKey.applyEntry_cases config entry with ⟨other, hname, happly⟩ | ⟨hno, happly⟩
          · rw [happly, hname]
            by_cases hother : other = key
            · rw [hother, hset, if_pos rfl]
              rfl
            · have htext : other.text ≠ key.text := fun h =>
                hother (PolicyKey.text_injective h)
              rw [hframe other hother, if_neg htext]
              rfl
          · rw [happly, if_neg (hno key)]
            rfl

theorem limits_foldl_applyEntry (entries : List (List Char × UInt32))
    (config : DynamicPolicyConfig) :
    (entries.foldl applyEntry config).qpPolicy.limit.maxGlobal =
        ((lastValue .maxGlobalQp entries).map id).getD config.qpPolicy.limit.maxGlobal ∧
      (entries.foldl applyEntry config).mrPolicy.limit.maxGlobal =
        ((lastValue .maxGlobalMr entries).map id).getD config.mrPolicy.limit.maxGlobal ∧
      (entries.foldl applyEntry config).memoryPolicy.limit.maxMemory =
        ((lastValue .maxMemoryMb entries).map fun val => val.toUInt64 * 1024 * 1024).getD
          config.memoryPolicy.limit.maxMemory := by
  refine ⟨get_foldl_applyEntry (f := (·.qpPolicy.limit.maxGlobal)) (fun _ _ => rfl) ?_ _ _,
    get_foldl_applyEntry (f := (·.mrPolicy.limit.maxGlobal)) (fun _ _ => rfl) ?_ _ _,
    get_foldl_applyEntry (f := (·.memoryPolicy.limit.maxMemory)) (fun _ _ => rfl) ?_ _ _⟩ <;>
  · intro other hother
    cases other <;> first | exact absurd rfl hother | exact fun _ _ => rfl

theorem policyLines_eq (config : DynamicPolicyConfig) :
    policyLines config = "# RDMA Dynamic Policy Configuration".toList ::
      (PolicyKey.all.map fun key => (key.text, key.value config)).map
        fun e => policyLine e.1 e.2 := rfl

/-! ## The round trip -/

/-- The quotient by 1 MiB, as the source divides. -/
theorem toNat_div_mib (m : UInt64) : (m / (1024 * 1024)).toNat = m.toNat / 2 ^ 20 := by
  rw [UInt64.toNat_div]
  rfl

theorem PolicyKey.value_lt {config : DynamicPolicyConfig}
    (hbelow : config.memoryPolicy.limit.maxMemory.toNat < 2 ^ 32 * 2 ^ 20) (key : PolicyKey) :
    key.value config < 2 ^ 32 := by
  cases key with
  | maxQpPerProcess | maxGlobalQp | maxMrPerProcess | maxGlobalMr | adjustInterval =>
      exact UInt32.toNat_lt _
  | maxMemoryMb =>
      rw [value, toNat_div_mib]
      omega
  | autoAdjust =>
      rw [value]
      split <;> omega

/-- A saved file is read as its seven numbers. -/
theorem load_saved {saved : DynamicPolicyConfig}
    (hbelow : saved.memoryPolicy.limit.maxMemory.toNat < 2 ^ 32 * 2 ^ 20)
    (config : DynamicPolicyConfig) :
    dynamicPolicyLoadConfig (dynamicPolicySaveConfig true saved).2 config =
      (0, PolicyKey.all.foldl
        (fun config key => key.set config (UInt32.ofNat (key.value saved))) config) := by
  have hsettings : ∀ e ∈ PolicyKey.all.map fun key => (key.text, key.value saved),
      PlainKey e.1 ∧ e.2 < 2 ^ 32 := by
    intro e he
    obtain ⟨key, _, rfl⟩ := List.mem_map.mp he
    exact ⟨key.plain, key.value_lt hbelow⟩
  have hentries := @fileEntries_policyLines "# RDMA Dynamic Policy Configuration".toList
    (by decide) (by decide) (by decide) _ hsettings
  rw [← policyLines_eq] at hentries
  show dynamicPolicyLoadConfig (some ((policyLines saved).flatMap (· ++ ['\n']))) config = _
  rw [load_eq_foldl, hentries, List.map_map, List.foldl_map]
  simp only [Function.comp_apply, PolicyKey.applyEntry_text]

/-- A number of MiB is multiplied back without overflow. -/
theorem mib_round_trip {m : UInt64} (hmultiple : 2 ^ 20 ∣ m.toNat)
    (hbelow : m.toNat < 2 ^ 32 * 2 ^ 20) :
    (UInt32.ofNat (m / (1024 * 1024)).toNat).toUInt64 * 1024 * 1024 = m := by
  obtain ⟨k, hk⟩ := hmultiple
  have hlt : k < 2 ^ 32 := by omega
  have hdiv : (m / (1024 * 1024)).toNat = k := by
    rw [toNat_div_mib, hk]
    omega
  have hval : (UInt32.ofNat k).toUInt64.toNat = k := by
    rw [UInt32.toNat_toUInt64, UInt32.toNat_ofNat', Nat.mod_eq_of_lt hlt]
  have hsize : (1024 : UInt64).toNat = 1024 := rfl
  apply UInt64.toNat_inj.mp
  rw [hdiv, UInt64.toNat_mul, UInt64.toNat_mul, hval, hsize, hk]
  omega

/-- `config` with the number of the key taken from `saved`. -/
def PolicyKey.copy (saved config : DynamicPolicyConfig) : PolicyKey → DynamicPolicyConfig
  | maxQpPerProcess =>
      { config with qpPolicy.limit.maxPerProcess := saved.qpPolicy.limit.maxPerProcess }
  | maxGlobalQp => { config with qpPolicy.limit.maxGlobal := saved.qpPolicy.limit.maxGlobal }
  | maxMrPerProcess =>
      { config with mrPolicy.limit.maxPerProcess := saved.mrPolicy.limit.maxPerProcess }
  | maxGlobalMr => { config with mrPolicy.limit.maxGlobal := saved.mrPolicy.limit.maxGlobal }
  | maxMemoryMb =>
      { config with memoryPolicy.limit.maxMemory := saved.memoryPolicy.limit.maxMemory }
  | autoAdjust => { config with autoAdjust := saved.autoAdjust }
  | adjustInterval => { config with adjustInterval := saved.adjustInterval }

/-- Reading a printed number back copies it. -/
theorem PolicyKey.set_value {saved : DynamicPolicyConfig}
    (hmultiple : 2 ^ 20 ∣ saved.memoryPolicy.limit.maxMemory.toNat)
    (hbelow : saved.memoryPolicy.limit.maxMemory.toNat < 2 ^ 32 * 2 ^ 20)
    (config : DynamicPolicyConfig) (key : PolicyKey) :
    key.set config (UInt32.ofNat (key.value saved)) = key.copy saved config := by
  cases key with
  | maxQpPerProcess | maxGlobalQp | maxMrPerProcess | maxGlobalMr | adjustInterval =>
      rw [value, UInt32.ofNat_toNat]
      rfl
  | maxMemoryMb =>
      rw [value, set, mib_round_trip hmultiple hbelow]
      rfl
  | autoAdjust =>
      -- printed as 1 or 0, read as a truth value
      rw [value, copy]
      cases saved.autoAdjust with
      | false | true => rfl

/-- **Policy file round trip.**  Loading what was saved sets the seven numbers
of the file to the saved values and leaves every other field of the
configuration in force as it was, provided the memory limit is a multiple of
1 MiB below `2 ^ 32` MiB. -/
theorem policy_file_round_trip (saved inForce : DynamicPolicyConfig)
    (hmultiple : 2 ^ 20 ∣ saved.memoryPolicy.limit.maxMemory.toNat)
    (hbelow : saved.memoryPolicy.limit.maxMemory.toNat < 2 ^ 32 * 2 ^ 20) :
    dynamicPolicyLoadConfig (dynamicPolicySaveConfig true saved).2 inForce =
      (0, { inForce with
        qpPolicy.limit.maxPerProcess := saved.qpPolicy.limit.maxPerProcess
        qpPolicy.limit.maxGlobal := saved.qpPolicy.limit.maxGlobal
        mrPolicy.limit.maxPerProcess := saved.mrPolicy.limit.maxPerProcess
        mrPolicy.limit.maxGlobal := saved.mrPolicy.limit.maxGlobal
        memoryPolicy.limit.maxMemory := saved.memoryPolicy.limit.maxMemory
        autoAdjust := saved.autoAdjust
        adjustInterval := saved.adjustInterval }) := by
  rw [load_saved hbelow]
  simp only [PolicyKey.set_value hmultiple hbelow]
  rfl

theorem policy_file_round_trip_default :
    dynamicPolicyLoadConfig
        (dynamicPolicySaveConfig true (setDefaultConfig fun _ => 0)).2
        { setDefaultConfig fun _ => 7 with
          qpPolicy.limit.maxGlobal := 5, autoAdjust := true, highWatermark := 0x3F800000 } =
      (0, { setDefaultConfig fun _ => 7 with highWatermark := 0x3F800000 }) :=
  policy_file_round_trip (setDefaultConfig fun _ => 0) _ (by decide) (by decide)

end MtRdma.Ports.PolicyFile
