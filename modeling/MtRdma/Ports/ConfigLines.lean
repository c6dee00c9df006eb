import MtRdma.Verified.CLines
import MtRdma.Ports.HookState

/-!
# Lines of the configuration file (`config.c`)

A line is a comment or sets one field of `intercept_config_t`: its key selects
a parser, and the parser either stores one value or refuses.  The functions are
followed as they are written, with the return value and the configuration they
leave.

Over them, a line is what it sets.  A `Setting` is a field together with a
value for it; the meaning of a line is a setting or nothing, and does not depend
on the configuration.  Storing a setting moves the field it names and no other.
-/

namespace MtRdma.Ports.ConfigLines

open Verified.CText
open Verified.CLines
open RdmaHooks (InterceptConfig)

/-! ## The configuration -/

/-- `log_level_t`. -/
inductive LogLevel where
  | debug
  | info
  | warn
  | error
  | fatal
  deriving Repr, DecidableEq

/-- `MAX_CONFIG_FILE_PATH`. -/
def maxConfigFilePath : Nat := 256

/-- The text in a buffer of `MAX_CONFIG_FILE_PATH` bytes. -/
abbrev PathText := { path : List Char // path.length < maxConfigFilePath }

/-- `intercept_config_t` with all its fields. -/
structure FullConfig extends InterceptConfig where
  logQpCreation : Bool
  logAllOperations : Bool
  logLevel : LogLevel
  logFilePath : PathText
  allowRqQp : Bool
  enableMrControl : Bool
  maxMrPerProcess : UInt32
  maxMemoryPerProcess : UInt64
  deriving Repr, DecidableEq

/-- The static initializer of `g_intercept_state.config`. -/
def FullConfig.default : FullConfig where
  toInterceptConfig := .default
  logQpCreation := true
  logAllOperations := false
  logLevel := .info
  logFilePath := ⟨"/tmp/rdma_intercept.log".toList, by decide⟩
  allowRqQp := true
  enableMrControl := false
  maxMrPerProcess := 1000
  maxMemoryPerProcess := 1024 * 1024 * 1024 * 10

/-! ## Value parsers -/

/-- `parse_bool`; `none` is the return value `-1`. -/
def parseBool (value : List Char) : Option Bool :=
  let value := foldCase (value.dropWhile isSpace)
  if value = "true".toList ∨ value = "yes".toList ∨ value = "on".toList ∨ value = "1".toList then
    some true
  else if value = "false".toList ∨ value = "no".toList ∨ value = "off".toList ∨
      value = "0".toList then
    some false
  else none

/-- `parse_log_level_value`. -/
def parseLogLevelValue (value : List Char) : Option LogLevel :=
  let value := foldCase (value.dropWhile isSpace)
  if value = "debug".toList then some .debug
  else if value = "info".toList then some .info
  else if value = "warn".toList ∨ value = "warning".toList then some .warn
  else if value = "error".toList then some .error
  else if value = "fatal".toList then some .fatal
  else none

/-- What `parse_string` drops from both ends: space, and quotes of either
kind. -/
def isSpaceOrQuote (c : Char) : Bool := isSpace c || c == '\x22' || c == '\x27'

/-- `parse_string` into a buffer of `MAX_CONFIG_FILE_PATH` bytes. -/
def parseString (value : List Char) : Option PathText :=
  let text := trim isSpaceOrQuote value
  if h : text.length < maxConfigFilePath then some ⟨text, h⟩ else none

/-- The test on the result of `strtol` that the numeric parsers make, from
`lowest` on. -/
def parseNumber (lowest : Int) (value : List Char) : Option UInt32 :=
  let val := strtol value
  if val < lowest ∨ 2 ^ 32 - 1 < val then none else some (UInt32.ofInt val)

/-! ## Parsers of the table -/

/-- A parser of the table: the value, and the configuration it stores into. -/
abbrev ConfigParser := List Char → FullConfig → Int × FullConfig

/-- Store what was parsed and return 0, or return `-1`. -/
def settle {α : Type} (parsed : Option α) (set : α → FullConfig → FullConfig)
    (config : FullConfig) : Int × FullConfig :=
  match parsed with
  | some a => (0, set a config)
  | none => (-1, config)

/-- `parse_enable_intercept`. -/
def parseEnableIntercept : ConfigParser := fun value =>
  settle (parseBool value) fun b config => { config with enableIntercept := b }

/-- `parse_log_qp_creation`. -/
def parseLogQpCreation : ConfigParser := fun value =>
  settle (parseBool value) fun b config => { config with logQpCreation := b }

/-- `parse_log_all_operations`. -/
def parseLogAllOperations : ConfigParser := fun value =>
  settle (parseBool value) fun b config => { config with logAllOperations := b }

/-- `parse_log_level_config`. -/
def parseLogLevelConfig : ConfigParser := fun value =>
  settle (parseLogLevelValue value) fun level config => { config with logLevel := level }

/-- `parse_log_file_path`. -/
def parseLogFilePath : ConfigParser := fun value =>
  settle (parseString value) fun path config => { config with logFilePath := path }

/-- `parse_enable_qp_control`. -/
def parseEnableQpControl : ConfigParser := fun value =>
  settle (parseBool value) fun b config => { config with enableQpControl := b }

/-- `parse_max_qp_per_process`. -/
def parseMaxQpPerProcess : ConfigParser := fun value =>
  settle (parseNumber 1 value) fun n config => { config with maxQpPerProcess := n }

/-- `parse_max_send_wr_limit`. -/
def parseMaxSendWrLimit : ConfigParser := fun value =>
  settle (parseNumber 1 value) fun n config => { config with maxSendWrLimit := n }

/-- `parse_max_recv_wr_limit`. -/
def parseMaxRecvWrLimit : ConfigParser := fun value =>
  settle (parseNumber 1 value) fun n config => { config with maxRecvWrLimit := n }

/-- `parse_allow_rc_qp`. -/
def parseAllowRcQp : ConfigParser := fun value =>
  settle (parseBool value) fun b config => { config with allowRcQp := b }

/-- `parse_allow_uc_qp`. -/
def parseAllowUcQp : ConfigParser := fun value =>
  settle (parseBool value) fun b config => { config with allowUcQp := b }

/-- `parse_allow_ud_qp`. -/
def parseAllowUdQp : ConfigParser := fun value =>
  settle (parseBool value) fun b config => { config with allowUdQp := b }

/-- `parse_max_global_qp`. -/
def parseMaxGlobalQp : ConfigParser := fun value =>
  settle (parseNumber 1 value) fun n config => { config with maxGlobalQp := n }

/-- `parse_enable_mr_rate_limit`. -/
def parseEnableMrRateLimit : ConfigParser := fun value =>
  settle (parseBool value) fun b config => { config with enableMrRateLimit := b }

/-- `parse_max_mr_ops_per_sec`. -/
def parseMaxMrOpsPerSec : ConfigParser := fun value =>
  settle (parseNumber 0 value) fun n config => { config with maxMrOpsPerSec := n }

/-- `parse_mr_rate_limit_window_ms`. -/
def parseMrRateLimitWindowMs : ConfigParser := fun value =>
  settle (parseNumber 0 value) fun n config => { config with mrRateLimitWindowMs := n }

/-- `config_table`. -/
def configTable : List (List Char × ConfigParser) :=
  [("enable_intercept".toList, parseEnableIntercept),
    ("log_qp_creation".toList, parseLogQpCreation),
    ("log_all_operations".toList, parseLogAllOperations),
    ("log_level".toList, parseLogLevelConfig),
    ("log_file_path".toList, parseLogFilePath),
    ("enable_qp_control".toList, parseEnableQpControl),
    ("max_qp_per_process".toList, parseMaxQpPerProcess),
    ("max_send_wr_limit".toList, parseMaxSendWrLimit),
    ("max_recv_wr_limit".toList, parseMaxRecvWrLimit),
    ("allow_rc_qp".toList, parseAllowRcQp),
    ("allow_uc_qp".toList, parseAllowUcQp),
    ("allow_ud_qp".toList, parseAllowUdQp),
    ("max_global_qp".toList, parseMaxGlobalQp),
    ("enable_mr_rate_limit".toList, parseEnableMrRateLimit),
    ("max_mr_ops_per_sec".toList, parseMaxMrOpsPerSec),
    ("mr_rate_limit_window_ms".toList, parseMrRateLimitWindowMs)]

/-- `trim_whitespace`. -/
def trimWhitespace (str : List Char) : List Char := trim isSpace str

/-- `parse_config_line`: the return value, and the configuration afterwards. -/
def parseConfigLine (line : List Char) (config : FullConfig) : Int × FullConfig :=
  let line := trimWhitespace line
  if line.head? = none ∨ line.head? = some '#' ∨ line.head? = some ';' then (0, config)
  else if '=' ∈ line then
    let key := trimWhitespace (before '=' line)
    let value := trimWhitespace (after '=' line)
    match configTable.find? fun entry => foldCase key == foldCase entry.1 with
    | some entry => entry.2 value config
    | none => (-1, config)
  else (-1, config)

/-! ## Settings -/

/-- The fields of the configuration. -/
inductive Field where
  | enableIntercept
  | logQpCreation
  | logAllOperations
  | logLevel
  | logFilePath
  | enableQpControl
  | maxQpPerProcess
  | maxSendWrLimit
  | maxRecvWrLimit
  | allowRcQp
  | allowUcQp
  | allowUdQp
  | allowRqQp
  | maxGlobalQp
  | enableMrControl
  | maxMrPerProcess
  | maxMemoryPerProcess
  | enableMrRateLimit
  | maxMrOpsPerSec
  | mrRateLimitWindowMs
  deriving Repr, DecidableEq

/-- A field and a value for it. -/
inductive Setting where
  | enableIntercept (b : Bool)
  | logQpCreation (b : Bool)
  | logAllOperations (b : Bool)
  | logLevel (level : LogLevel)
  | logFilePath (path : PathText)
  | enableQpControl (b : Bool)
  | maxQpPerProcess (n : UInt32)
  | maxSendWrLimit (n : UInt32)
  | maxRecvWrLimit (n : UInt32)
  | allowRcQp (b : Bool)
  | allowUcQp (b : Bool)
  | allowUdQp (b : Bool)
  | allowRqQp (b : Bool)
  | maxGlobalQp (n : UInt32)
  | enableMrControl (b : Bool)
  | maxMrPerProcess (n : UInt32)
  | maxMemoryPerProcess (n : UInt64)
  | enableMrRateLimit (b : Bool)
  | maxMrOpsPerSec (n : UInt32)
  | mrRateLimitWindowMs (n : UInt32)
  deriving Repr, DecidableEq

namespace Setting

def field : Setting → Field
  | enableIntercept _ => .enableIntercept
  | logQpCreation _ => .logQpCreation
  | logAllOperations _ => .logAllOperations
  | logLevel _ => .logLevel
  | logFilePath _ => .logFilePath
  | enableQpControl _ => .enableQpControl
  | maxQpPerProcess _ => .maxQpPerProcess
  | maxSendWrLimit _ => .maxSendWrLimit
  | maxRecvWrLimit _ => .maxRecvWrLimit
  | allowRcQp _ => .allowRcQp
  | allowUcQp _ => .allowUcQp
  | allowUdQp _ => .allowUdQp
  | allowRqQp _ => .allowRqQp
  | maxGlobalQp _ => .maxGlobalQp
  | enableMrControl _ => .enableMrControl
  | maxMrPerProcess _ => .maxMrPerProcess
  | maxMemoryPerProcess _ => .maxMemoryPerProcess
  | enableMrRateLimit _ => .enableMrRateLimit
  | maxMrOpsPerSec _ => .maxMrOpsPerSec
  | mrRateLimitWindowMs _ => .mrRateLimitWindowMs

/-- Store the value into its field. -/
def store (config : FullConfig) : Setting → FullConfig
  | enableIntercept b => { config with enableIntercept := b }
  | logQpCreation b => { config with logQpCreation := b }
  | logAllOperations b => { config with logAllOperations := b }
  | logLevel level => { config with logLevel := level }
  | logFilePath path => { config with logFilePath := path }
  | enableQpControl b => { config with enableQpControl := b }
  | maxQpPerProcess n => { config with maxQpPerProcess := n }
  | maxSendWrLimit n => { config with maxSendWrLimit := n }
  | maxRecvWrLimit n => { config with maxRecvWrLimit := n }
  | allowRcQp b => { config with allowRcQp := b }
  | allowUcQp b => { config with allowUcQp := b }
  | allowUdQp b => { config with allowUdQp := b }
  | allowRqQp b => { config with allowRqQp := b }
  | maxGlobalQp n => { config with maxGlobalQp := n }
  | enableMrControl b => { config with enableMrControl := b }
  | maxMrPerProcess n => { config with maxMrPerProcess := n }
  | maxMemoryPerProcess n => { config with maxMemoryPerProcess := n }
  | enableMrRateLimit b => { config with enableMrRateLimit := b }
  | maxMrOpsPerSec n => { config with maxMrOpsPerSec := n }
  | mrRateLimitWindowMs n => { config with mrRateLimitWindowMs := n }

end Setting

/-- The value of a field, as the setting that stores it. -/
def Field.read (config : FullConfig) : Field → Setting
  | enableIntercept => .enableIntercept config.enableIntercept
  | logQpCreation => .logQpCreation config.logQpCreation
  | logAllOperations => .logAllOperations config.logAllOperations
  | logLevel => .logLevel config.logLevel
  | logFilePath => .logFilePath config.logFilePath
  | enableQpControl => .enableQpControl config.enableQpControl
  | maxQpPerProcess => .maxQpPerProcess config.maxQpPerProcess
  | maxSendWrLimit => .maxSendWrLimit config.maxSendWrLimit
  | maxRecvWrLimit => .maxRecvWrLimit config.maxRecvWrLimit
  | allowRcQp => .allowRcQp config.allowRcQp
  | allowUcQp => .allowUcQp config.allowUcQp
  | allowUdQp => .allowUdQp config.allowUdQp
  | allowRqQp => .allowRqQp config.allowRqQp
  | maxGlobalQp => .maxGlobalQp config.maxGlobalQp
  | enableMrControl => .enableMrControl config.enableMrControl
  | maxMrPerProcess => .maxMrPerProcess config.maxMrPerProcess
  | maxMemoryPerProcess => .maxMemoryPerProcess config.maxMemoryPerProcess
  | enableMrRateLimit => .enableMrRateLimit config.enableMrRateLimit
  | maxMrOpsPerSec => .maxMrOpsPerSec config.maxMrOpsPerSec
  | mrRateLimitWindowMs => .mrRateLimitWindowMs config.mrRateLimitWindowMs

/-- A setting moves its field and no other. -/
theorem read_store (config : FullConfig) (s : Setting) (f : Field) :
    f.read (s.store config) = if s.field = f then s else f.read config := by
  cases s <;> cases f <;> rfl

/-- A configuration is what its fields hold. -/
theorem config_ext {c c' : FullConfig} (h : ∀ f : Field, f.read c = f.read c') : c = c' := by
  obtain ⟨⟨_, _, _, _, _, _, _, _, _, _, _, _⟩, _, _, _, _, _, _, _, _⟩ := c
  obtain ⟨⟨_, _, _, _, _, _, _, _, _, _, _, _⟩, _, _, _, _, _, _, _, _⟩ := c'
  cases h .enableIntercept
  cases h .logQpCreation
  cases h .logAllOperations
  cases h .logLevel
  cases h .logFilePath
  cases h .enableQpControl
  cases h .maxQpPerProcess
  cases h .maxSendWrLimit
  cases h .maxRecvWrLimit
  cases h .allowRcQp
  cases h .allowUcQp
  cases h .allowUdQp
  cases h .allowRqQp
  cases h .maxGlobalQp
  cases h .enableMrControl
  cases h .maxMrPerProcess
  cases h .maxMemoryPerProcess
  cases h .enableMrRateLimit
  cases h .maxMrOpsPerSec
  cases h .mrRateLimitWindowMs
  rfl

/-- The amount of memory a text stands for, if it is not zero. -/
def parseMemory (value : List Char) : Option UInt64 :=
  if 0 < strtoul value then some (strtoul value) else none

/-- The setting a value text stands for; `allow_rq_qp` cannot be set. -/
def Field.parse (value : List Char) : Field → Option Setting
  | enableIntercept => (parseBool value).map .enableIntercept
  | logQpCreation => (parseBool value).map .logQpCreation
  | logAllOperations => (parseBool value).map .logAllOperations
  | logLevel => (parseLogLevelValue value).map .logLevel
  | logFilePath => (parseString value).map .logFilePath
  | enableQpControl => (parseBool value).map .enableQpControl
  | maxQpPerProcess => (parseNumber 1 value).map .maxQpPerProcess
  | maxSendWrLimit => (parseNumber 1 value).map .maxSendWrLimit
  | maxRecvWrLimit => (parseNumber 1 value).map .maxRecvWrLimit
  | allowRcQp => (parseBool value).map .allowRcQp
  | allowUcQp => (parseBool value).map .allowUcQp
  | allowUdQp => (parseBool value).map .allowUdQp
  | allowRqQp => none
  | maxGlobalQp => (parseNumber 1 value).map .maxGlobalQp
  | enableMrControl => (parseBool value).map .enableMrControl
  | maxMrPerProcess => (parseNumber 1 value).map .maxMrPerProcess
  | maxMemoryPerProcess => (parseMemory value).map .maxMemoryPerProcess
  | enableMrRateLimit => (parseBool value).map .enableMrRateLimit
  | maxMrOpsPerSec => (parseNumber 0 value).map .maxMrOpsPerSec
  | mrRateLimitWindowMs => (parseNumber 0 value).map .mrRateLimitWindowMs

theorem field_of_parse {f : Field} {value : List Char} {s : Setting}
    (h : f.parse value = some s) : s.field = f := by
  have hmap : ∀ {α : Type} {parsed : Option α} {mk : α → Setting}, (∀ a, (mk a).field = f) →
      parsed.map mk = some s → s.field = f := by
    intro α parsed mk hfield hs
    obtain ⟨a, -, rfl⟩ := Option.map_eq_some_iff.mp hs
    exact hfield a
  cases f with
  | allowRqQp => cases h
  | _ => exact hmap (fun _ => rfl) h

/-! ## The table -/

/-- The fields with a key, in the order of the table. -/
def fileFields : List Field :=
  [.enableIntercept, .logQpCreation, .logAllOperations, .logLevel, .logFilePath,
    .enableQpControl, .maxQpPerProcess, .maxSendWrLimit, .maxRecvWrLimit, .allowRcQp, .allowUcQp,
    .allowUdQp, .maxGlobalQp, .enableMrRateLimit, .maxMrOpsPerSec, .mrRateLimitWindowMs]

/-- The key of a field and its parser. -/
def Field.entry : Field → List Char × ConfigParser
  | enableIntercept => ("enable_intercept".toList, parseEnableIntercept)
  | logQpCreation => ("log_qp_creation".toList, parseLogQpCreation)
  | logAllOperations => ("log_all_operations".toList, parseLogAllOperations)
  | logLevel => ("log_level".toList, parseLogLevelConfig)
  | logFilePath => ("log_file_path".toList, parseLogFilePath)
  | enableQpControl => ("enable_qp_control".toList, parseEnableQpControl)
  | maxQpPerProcess => ("max_qp_per_process".toList, parseMaxQpPerProcess)
  | maxSendWrLimit => ("max_send_wr_limit".toList, parseMaxSendWrLimit)
  | maxRecvWrLimit => ("max_recv_wr_limit".toList, parseMaxRecvWrLimit)
  | allowRcQp => ("allow_rc_qp".toList, parseAllowRcQp)
  | allowUcQp => ("allow_uc_qp".toList, parseAllowUcQp)
  | allowUdQp => ("allow_ud_qp".toList, parseAllowUdQp)
  | maxGlobalQp => ("max_global_qp".toList, parseMaxGlobalQp)
  | enableMrRateLimit => ("enable_mr_rate_limit".toList, parseEnableMrRateLimit)
  | maxMrOpsPerSec => ("max_mr_ops_per_sec".toList, parseMaxMrOpsPerSec)
  | mrRateLimitWindowMs => ("mr_rate_limit_window_ms".toList, parseMrRateLimitWindowMs)
  | _ => ([], fun _ config => (-1, config))

/-- The key of a field, in lower case. -/
def Field.key (f : Field) : List Char := f.entry.1

theorem configTable_eq : configTable = fileFields.map Field.entry := rfl

/-- Every parser of the table stores the setting its value stands for. -/
theorem entry_parser_eq {f : Field} (hf : f ∈ fileFields) (value : List Char)
    (config : FullConfig) :
    f.entry.2 value config = settle (f.parse value) (fun s c => s.store c) config := by
  have hmap : ∀ {α : Type} (parsed : Option α) (set : α → FullConfig → FullConfig)
      (mk : α → Setting), (∀ a c, set a c = (mk a).store c) →
      settle parsed set config = settle (parsed.map mk) (fun s c => s.store c) config := by
    intro α parsed set mk hset
    cases parsed with
    | none => rfl
    | some a => exact congrArg (Prod.mk 0) (hset a config)
  cases f with
  | allowRqQp | enableMrControl | maxMrPerProcess | maxMemoryPerProcess => simp [fileFields] at hf
  | _ =>
      dsimp only [Field.entry, Field.parse]
      refine hmap _ _ _ ?_
      intro a c
      rfl

/-- The field that a key names. -/
def fieldOfKey (key : List Char) : Option Field :=
  fileFields.find? fun f => foldCase key == foldCase f.key

/-- The key of a line. -/
def keyOf (line : List Char) : List Char := trimWhitespace (before '=' line)

/-- The value text of a line. -/
def valueOf (line : List Char) : List Char := trimWhitespace (after '=' line)

/-- The line is blank or a comment. -/
def Skipped (line : List Char) : Prop :=
  (line.dropWhile isSpace).head? = none ∨ (line.dropWhile isSpace).head? = some '#' ∨
    (line.dropWhile isSpace).head? = some ';'

instance (line : List Char) : Decidable (Skipped line) := by
  unfold Skipped
  infer_instance

/-- What a line that is not skipped sets. -/
def settingOf (line : List Char) : Option Setting :=
  if '=' ∈ line then (fieldOfKey (keyOf line)).bind (Field.parse (valueOf line)) else none

/-- Trimming a line trims before its key and after its value. -/
theorem trimWhitespace_line {line : List Char} (h : '=' ∈ line) :
    trimWhitespace line = (before '=' line).dropWhile isSpace ++
      '=' :: (after '=' line).rdropWhile isSpace := by
  have hsplit := trim_append_cons isSpace (x := '=') (by decide) (before '=' line) (after '=' line)
  rw [← eq_before_append h] at hsplit
  exact hsplit

/-- Trimming the line first makes no difference to its key and value. -/
theorem trimmed_line {line : List Char} (h : '=' ∈ line) :
    '=' ∈ trimWhitespace line ∧
      trimWhitespace (before '=' (trimWhitespace line)) = keyOf line ∧
      trimWhitespace (after '=' (trimWhitespace line)) = valueOf line := by
  have hpre : '=' ∉ (before '=' line).dropWhile isSpace := fun hmem =>
    notMem_before '=' line ((List.dropWhile_sublist _).subset hmem)
  rw [trimWhitespace_line h, before_append_cons hpre, after_append_cons hpre]
  exact ⟨List.mem_append_right _ List.mem_cons_self, trim_dropWhile isSpace _,
    trim_rdropWhile isSpace _⟩

theorem mem_of_mem_trim {c : Char} {line : List Char} (h : c ∈ trimWhitespace line) : c ∈ line :=
  (List.dropWhile_sublist _).subset ((List.rdropWhile_prefix _ _).subset h)

/-- The parser of a key stores what the value stands for in the field the key
names. -/
theorem table_lookup (key value : List Char) (config : FullConfig) :
    (match configTable.find? fun entry => foldCase key == foldCase entry.1 with
      | some entry => entry.2 value config
      | none => (-1, config)) =
      settle ((fieldOfKey key).bind (Field.parse value)) (fun s c => s.store c) config := by
  rw [configTable_eq, List.find?_map]
  unfold fieldOfKey
  show (match Option.map Field.entry
    (fileFields.find? fun f => foldCase key == foldCase f.key) with
      | some entry => entry.2 value config
      | none => (-1, config)) = _
  cases hfind : fileFields.find? fun f => foldCase key == foldCase f.key with
  | none => rfl
  | some f => exact entry_parser_eq (List.mem_of_find?_eq_some hfind) value config

/-- **What a line does.**  A skipped line does nothing; any other line stores
its setting, or is refused if it has none. -/
theorem parseConfigLine_eq (line : List Char) (config : FullConfig) :
    parseConfigLine line config =
      if Skipped line then (0, config)
      else settle (settingOf line) (fun s c => s.store c) config := by
  have hskip : (trimWhitespace line).head? = none ∨ (trimWhitespace line).head? = some '#' ∨
      (trimWhitespace line).head? = some ';' ↔ Skipped line := by
    rw [trimWhitespace, head?_trim]
    rfl
  unfold parseConfigLine
  dsimp only
  by_cases h : Skipped line
  · rw [if_pos (hskip.mpr h), if_pos h]
  · rw [if_neg (fun hs => h (hskip.mp hs)), if_neg h]
    unfold settingOf
    by_cases hmem : '=' ∈ line
    · obtain ⟨htrim, hkey, hvalue⟩ := trimmed_line hmem
      rw [if_pos htrim, if_pos hmem, hkey, hvalue]
      exact table_lookup _ _ config
    · rw [if_neg (fun hs => hmem (mem_of_mem_trim hs)), if_neg hmem]
      rfl

/-- A line with a key is a comment if its key begins like one. -/
theorem skipped_iff_key {line : List Char} (h : '=' ∈ line) :
    Skipped line ↔
      (foldCase (keyOf line)).head? = some '#' ∨ (foldCase (keyOf line)).head? = some ';' := by
  have hhead : (line.dropWhile isSpace).head? = some ((keyOf line).head?.getD '=') := by
    have hline : (trimWhitespace line).head? = _ := head?_trim isSpace line
    have hkey : (keyOf line).head? = _ := head?_trim isSpace (before '=' line)
    rw [← hline, hkey, trimWhitespace_line h]
    cases (before '=' line).dropWhile isSpace with
    | nil | cons => rfl
  rw [head?_foldCase_eq_some (by decide), head?_foldCase_eq_some (by decide), Skipped, hhead]
  cases (keyOf line).head? with
  | none => decide
  | some c => simp

theorem fieldOfKey_congr {key key' : List Char} (h : foldCase key = foldCase key') :
    fieldOfKey key = fieldOfKey key' := by
  unfold fieldOfKey
  rw [h]

/-- What a line does is determined by its key, up to case, and its value. -/
theorem parseConfigLine_congr {line line' : List Char} (h : '=' ∈ line) (h' : '=' ∈ line')
    (hkey : foldCase (keyOf line) = foldCase (keyOf line')) (hvalue : valueOf line = valueOf line')
    (config : FullConfig) : parseConfigLine line config = parseConfigLine line' config := by
  have hskip : Skipped line ↔ Skipped line' := by
    rw [skipped_iff_key h, skipped_iff_key h', hkey]
  have hset : settingOf line = settingOf line' := by
    rw [settingOf, settingOf, if_pos h, if_pos h', fieldOfKey_congr hkey, hvalue]
  rw [parseConfigLine_eq, parseConfigLine_eq, hset]
  exact if_congr hskip rfl rfl

/-- A key names the field whose key it is, up to case. -/
theorem fieldOfKey_some {key : List Char} {f : Field} (h : fieldOfKey key = some f) :
    f ∈ fileFields ∧ foldCase key = foldCase f.key := by
  constructor
  · exact List.mem_of_find?_eq_some h
  · have hfound := List.find?_some h
    exact eq_of_beq hfound

theorem settingOf_some {line : List Char} {s : Setting} (h : settingOf line = some s) :
    ∃ f ∈ fileFields, foldCase (keyOf line) = foldCase f.key ∧ f.parse (valueOf line) = some s := by
  unfold settingOf at h
  split at h
  · obtain ⟨f, hf, hs⟩ := Option.bind_eq_some_iff.mp h
    obtain ⟨hmem, hkey⟩ := fieldOfKey_some hf
    exact ⟨f, hmem, hkey, hs⟩
  · cases h

theorem parseConfigLine_no_equals {line : List Char} (h : '=' ∉ line) (config : FullConfig) :
    parseConfigLine line config = (if Skipped line then 0 else -1, config) := by
  rw [parseConfigLine_eq, settingOf, if_neg h]
  by_cases hskip : Skipped line
  · rw [if_pos hskip, if_pos hskip]
  · rw [if_neg hskip, if_neg hskip]
    rfl

/-- A line that is refused does nothing. -/
theorem parseConfigLine_refused {line : List Char} {config : FullConfig}
    (h : (parseConfigLine line config).1 ≠ 0) : parseConfigLine line config = (-1, config) := by
  rw [parseConfigLine_eq] at h ⊢
  by_cases hskip : Skipped line
  · rw [if_pos hskip] at h
    exact absurd rfl h
  · rw [if_neg hskip] at h ⊢
    cases hs : settingOf line with
    | none => rfl
    | some s =>
        rw [hs] at h
        exact absurd rfl h

/-- A setting line that is accepted has a setting, and stores it. -/
theorem parseConfigLine_accepted {line : List Char} {config : FullConfig} (hskip : ¬Skipped line)
    (h : (parseConfigLine line config).1 = 0) :
    ∃ s, settingOf line = some s ∧ parseConfigLine line config = (0, s.store config) := by
  rw [parseConfigLine_eq, if_neg hskip] at h ⊢
  cases hs : settingOf line with
  | none =>
      rw [hs] at h
      exact absurd h (by simp [settle])
  | some s => exact ⟨s, rfl, rfl⟩

/-- **Lines are atomic and canonical.**  Return value and effect are those of
any line with the same key up to case and the same value.  Blank lines and
comments succeed and do nothing.  A line that fails does nothing.  A setting
that succeeds leaves the value that its text stands for in the field of its
key and every other field as it was. -/
theorem config_line_atomic (line : List Char) (config : FullConfig) :
    (∀ line', '=' ∈ line → '=' ∈ line' → foldCase (keyOf line) = foldCase (keyOf line') →
      valueOf line = valueOf line' →
      parseConfigLine line config = parseConfigLine line' config) ∧
    ('=' ∉ line → parseConfigLine line config = (if Skipped line then 0 else -1, config)) ∧
    (Skipped line → parseConfigLine line config = (0, config)) ∧
    ((parseConfigLine line config).1 ≠ 0 → parseConfigLine line config = (-1, config)) ∧
    (¬Skipped line → (parseConfigLine line config).1 = 0 →
      ∃ f ∈ fileFields, foldCase (keyOf line) = foldCase f.key ∧
        f.parse (valueOf line) = some (f.read (parseConfigLine line config).2) ∧
        ∀ g ≠ f, g.read (parseConfigLine line config).2 = g.read config) := by
  refine ⟨?_, ?_, ?_, parseConfigLine_refused, ?_⟩
  · intro line' h h' hkey hvalue
    exact parseConfigLine_congr h h' hkey hvalue config
  · intro h
    exact parseConfigLine_no_equals h config
  · intro hskip
    rw [parseConfigLine_eq, if_pos hskip]
  · intro hskip hzero
    obtain ⟨s, hs, hstored⟩ := parseConfigLine_accepted hskip hzero
    obtain ⟨f, hf, hkey, hparse⟩ := settingOf_some hs
    have hfield := field_of_parse hparse
    rw [hstored]
    refine ⟨f, hf, hkey, ?_, ?_⟩
    · rw [read_store, if_pos hfield, hparse]
    · intro g hg
      rw [read_store, if_neg (fun h => hg (h.symm.trans hfield))]

theorem same_setting_same_effect :
    parseConfigLine "Log_Level=WARN".toList .default =
      parseConfigLine "  log_level = WARN ".toList .default :=
  (config_line_atomic "Log_Level=WARN".toList .default).1 "  log_level = WARN ".toList
    (by decide +kernel) (by decide +kernel) (by decide +kernel) (by decide +kernel)

/-! ## Numbers -/

/-- The fields with a numeric key: the lowest number accepted, and the setting
of a number. -/
def Field.numeric : Field → Option (Int × (UInt32 → Setting))
  | maxQpPerProcess => some (1, .maxQpPerProcess)
  | maxSendWrLimit => some (1, .maxSendWrLimit)
  | maxRecvWrLimit => some (1, .maxRecvWrLimit)
  | maxGlobalQp => some (1, .maxGlobalQp)
  | maxMrOpsPerSec => some (0, .maxMrOpsPerSec)
  | mrRateLimitWindowMs => some (0, .mrRateLimitWindowMs)
  | _ => none

/-- The text is a numeral for `n`, and `n` can be stored. -/
def Denotes (lowest : Int) (value : List Char) (n : Int) : Prop :=
  Numeral value n ∧ lowest ≤ n ∧ n ≤ 2 ^ 32 - 1

/-- The line is accepted exactly if its value is a numeral in range, and then
stores the number; otherwise it does nothing. -/
def TakesNumerals (lowest : Int) (set : UInt32 → Setting) (line : List Char) : Prop :=
  ∀ config, (∀ n, Denotes lowest (valueOf line) n →
      parseConfigLine line config = (0, (set (UInt32.ofInt n)).store config)) ∧
    ((∀ n, ¬Denotes lowest (valueOf line) n) → parseConfigLine line config = (-1, config))

/-- Every key finds its own field, and none begins like a comment. -/
theorem keys_found : ∀ f ∈ fileFields,
    fileFields.find? (fun g => f.key == foldCase g.key) = some f ∧
      f.key.head? ≠ some '#' ∧ f.key.head? ≠ some ';' := by
  decide +kernel

theorem numeric_parse {f : Field} {lowest : Int} {set : UInt32 → Setting}
    (h : f.numeric = some (lowest, set)) (value : List Char) :
    f ∈ fileFields ∧ 0 ≤ lowest ∧ f.parse value = (parseNumber lowest value).map set := by
  cases f <;> cases h <;> exact ⟨by decide, by decide, rfl⟩

/-- A line with a numeric key stores what `strtol` reads, if that is in
range. -/
theorem parseConfigLine_numeric {f : Field} {lowest : Int} {set : UInt32 → Setting}
    (hf : f.numeric = some (lowest, set)) {line : List Char} (hline : '=' ∈ line)
    (hkey : foldCase (keyOf line) = f.key) (config : FullConfig) :
    parseConfigLine line config =
      settle ((parseNumber lowest (valueOf line)).map set) (fun s c => s.store c) config := by
  obtain ⟨hmem, -, hparse⟩ := numeric_parse hf (valueOf line)
  obtain ⟨hfind, hhash, hsemi⟩ := keys_found f hmem
  have hskip : ¬Skipped line := by
    rw [skipped_iff_key hline, hkey]
    exact not_or.mpr ⟨hhash, hsemi⟩
  have hfield : fieldOfKey (keyOf line) = some f := by
    rw [fieldOfKey, hkey, hfind]
  rw [parseConfigLine_eq, if_neg hskip, settingOf, if_pos hline, hfield, Option.bind_some, hparse]

/-- A numeral in range is what `strtol` reads. -/
theorem strtol_of_denotes {lowest n : Int} (hlowest : 0 ≤ lowest) {value : List Char}
    (h : Denotes lowest value n) : strtol value = n := by
  obtain ⟨hnum, hlow, hhigh⟩ := h
  rw [strtol_numeral hnum]
  omega

/-- A text that is no numeral and of which `strtol` still reads a number in range
has something behind its digits, or it has no digits and 0 is in range. -/
theorem misread_text {lowest : Int} (hlowest : 0 ≤ lowest) {line : List Char}
    (hno : ¬∃ n, Numeral (valueOf line) n) (hread : lowest ≤ strtol (valueOf line)) :
    (∃ digits rest, afterSign (valueOf line) = digits ++ rest ∧ digits ≠ [] ∧
        (∀ c ∈ digits, c.isDigit = true) ∧ rest ≠ [] ∧ NoDigit rest) ∨
      (NoDigit (afterSign (valueOf line)) ∧ lowest = 0) := by
  by_cases hfirst : NoDigit (afterSign (valueOf line))
  · have htrim : (valueOf line).dropWhile isSpace = valueOf line := by
      unfold valueOf trimWhitespace trim
      rw [← dropWhile_rdropWhile_comm, List.dropWhile_idempotent]
    rw [strtol_of_noDigit htrim hfirst] at hread
    exact .inr ⟨hfirst, by omega⟩
  · generalize valueOf line = text at hno hfirst ⊢
    have hrest : NoDigit ((afterSign text).dropWhile Char.isDigit) := by
      intro c hc
      have hnot := List.head?_dropWhile_not Char.isDigit (afterSign text)
      simpa [Option.mem_def.mp hc] using hnot
    refine .inl ⟨_, _, List.takeWhile_append_dropWhile.symm, fun hnil => hfirst ?_,
      fun c hc => List.mem_takeWhile_imp hc, fun hnil => hno ?_, hrest⟩
    · have hsplit := List.takeWhile_append_dropWhile (p := Char.isDigit) (l := afterSign text)
      rw [hnil, List.nil_append] at hsplit
      exact hsplit ▸ hrest
    · have hdigits := List.dropWhile_eq_nil_iff.mp hnil
      refine numeral_of_digits (fun hempty => hfirst ?_) hdigits
      rw [hempty]
      exact nofun

/-- **Numeric settings.**  A line with a numeric key takes exactly the numerals
in range if and only if its value is a numeral or `strtol` reads a number from
it that is out of range.  `misread_text` says which texts are left. -/
theorem takesNumerals_iff {f : Field} {lowest : Int} {set : UInt32 → Setting}
    (hf : f.numeric = some (lowest, set)) {line : List Char} (hline : '=' ∈ line)
    (hkey : foldCase (keyOf line) = f.key) :
    TakesNumerals lowest set line ↔
      (∃ n, Numeral (valueOf line) n) ∨ strtol (valueOf line) < lowest ∨
        2 ^ 32 - 1 < strtol (valueOf line) := by
  obtain ⟨-, hlowest, -⟩ := numeric_parse hf (valueOf line)
  unfold TakesNumerals
  simp only [parseConfigLine_numeric hf hline hkey]
  unfold parseNumber
  dsimp only
  constructor
  · intro h
    by_contra hnot
    rw [not_or] at hnot
    have hrefused := (h FullConfig.default).2 fun n hn => hnot.1 ⟨n, hn.1⟩
    rw [if_neg hnot.2] at hrefused
    cases hrefused
  · intro h config
    constructor
    · intro n hn
      rw [strtol_of_denotes hlowest hn, if_neg (by have := hn.2; omega)]
      rfl
    · intro hno
      have hout : strtol (valueOf line) < lowest ∨ 2 ^ 32 - 1 < strtol (valueOf line) := by
        cases h with
        | inl hnum =>
            obtain ⟨n, hn⟩ := hnum
            have hrange : ¬(lowest ≤ n ∧ n ≤ 2 ^ 32 - 1) := fun hrange => hno n ⟨hn, hrange⟩
            rw [strtol_numeral hn]
            omega
        | inr hout => exact hout
      rw [if_pos hout]
      rfl

theorem takesNumerals_limit_seven :
    TakesNumerals 1 .maxQpPerProcess "  MAX_QP_per_process = 7".toList := by
  have hseven : Numeral ['7'] 7 := .unsigned (List.cons_ne_nil _ _) (by simp)
  have hvalue : valueOf "  MAX_QP_per_process = 7".toList = ['7'] := by decide +kernel
  exact (takesNumerals_iff (f := .maxQpPerProcess) rfl (by decide +kernel)
    (by decide +kernel)).mpr (.inl ⟨7, hvalue ▸ hseven⟩)

/-- A limit with something behind its digits is accepted, and a rate limit
without digits is accepted and turns the limit off. -/
theorem typing_errors_accepted :
    (parseConfigLine "max_qp_per_process = 12abc".toList .default =
        (0, { FullConfig.default with maxQpPerProcess := 12 }) ∧
      ∀ n, ¬Numeral "12abc".toList n) ∧
    (parseConfigLine "max_mr_ops_per_sec = fast".toList
        { FullConfig.default with maxMrOpsPerSec := 50 } = (0, .default) ∧
      ∀ n, ¬Numeral "fast".toList n) ∧
    ¬TakesNumerals 1 .maxQpPerProcess "max_qp_per_process = 12abc".toList ∧
    ¬TakesNumerals 0 .maxMrOpsPerSec "max_mr_ops_per_sec = fast".toList := by
  have hlimit : parseConfigLine "max_qp_per_process = 12abc".toList .default =
      (0, { FullConfig.default with maxQpPerProcess := 12 }) := by decide +kernel
  have hrate : parseConfigLine "max_mr_ops_per_sec = fast".toList
      { FullConfig.default with maxMrOpsPerSec := 50 } = (0, .default) := by decide +kernel
  have hlimitText : ∀ n, ¬Numeral "12abc".toList n := fun n h =>
    absurd (isDigit_of_numeral h 'a' (by decide)) (by decide)
  have hrateText : ∀ n, ¬Numeral "fast".toList n := fun n h =>
    absurd (isDigit_of_numeral h 'a' (by decide)) (by decide)
  refine ⟨⟨hlimit, hlimitText⟩, ⟨hrate, hrateText⟩, ?_, ?_⟩
  · intro h
    have hrefused := (h .default).2 fun n hn => hlimitText n hn.1
    rw [hlimit] at hrefused
    cases hrefused
  · intro h
    have hrefused := (h { FullConfig.default with maxMrOpsPerSec := 50 }).2
      fun n hn => hrateText n hn.1
    rw [hrate] at hrefused
    cases hrefused

end MtRdma.Ports.ConfigLines
