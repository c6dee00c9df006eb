import MtRdma.Verified.LastWrite
import MtRdma.Ports.ConfigLines

/-!
# Loading the configuration (`config.c`)

`rdma_intercept_load_config` starts from the configuration in force, applies the
environment, and then folds `parse_config_line` over what `fgets` delivers from
the file through a buffer of 1024 bytes.

Environment and file are both sequences of settings, so every field ends with
the last setting made for it.  From this description follow the two questions
asked here: whether the pieces that `fgets` delivers stand for the lines of the
file, and which of the two sources decides.
-/

namespace MtRdma.Ports.ConfigLoad

open Verified.CText
open Verified.CLines
open Verified.LastWrite
open ConfigLines

/-! ## The environment -/

/-- `getenv`. -/
abbrev Env := List Char → Option (List Char)

/-- `fopen` for reading, with what there is to read. -/
abbrev Files := List Char → Option (List Char)

/-- One variable: if it is set and its text is valid, store the value. -/
def fromEnv {α : Type} (env : Env) (name : String) (parse : List Char → Option α)
    (set : α → FullConfig → FullConfig) (config : FullConfig) : FullConfig :=
  match env name.toList with
  | some text => (settle (parse text) set config).2
  | none => config

/-- `load_config_from_env`. -/
def loadConfigFromEnv (env : Env) (config : FullConfig) : FullConfig :=
  let config := fromEnv env "RDMA_INTERCEPT_ENABLE_QP_CONTROL" parseBool
    (fun b c => { c with enableQpControl := b }) config
  let config := fromEnv env "RDMA_INTERCEPT_MAX_QP_PER_PROCESS" (parseNumber 1)
    (fun n c => { c with maxQpPerProcess := n }) config
  let config := fromEnv env "RDMA_INTERCEPT_MAX_GLOBAL_QP" (parseNumber 1)
    (fun n c => { c with maxGlobalQp := n }) config
  let config := fromEnv env "RDMA_INTERCEPT_MAX_SEND_WR_LIMIT" (parseNumber 1)
    (fun n c => { c with maxSendWrLimit := n }) config
  let config := fromEnv env "RDMA_INTERCEPT_MAX_RECV_WR_LIMIT" (parseNumber 1)
    (fun n c => { c with maxRecvWrLimit := n }) config
  let config := fromEnv env "RDMA_INTERCEPT_ALLOW_RC_QP" parseBool
    (fun b c => { c with allowRcQp := b }) config
  let config := fromEnv env "RDMA_INTERCEPT_ALLOW_UC_QP" parseBool
    (fun b c => { c with allowUcQp := b }) config
  let config := fromEnv env "RDMA_INTERCEPT_ALLOW_UD_QP" parseBool
    (fun b c => { c with allowUdQp := b }) config
  let config := fromEnv env "RDMA_INTERCEPT_ENABLE_MR_CONTROL" parseBool
    (fun b c => { c with enableMrControl := b }) config
  let config := fromEnv env "RDMA_INTERCEPT_MAX_MR_PER_PROCESS" (parseNumber 1)
    (fun n c => { c with maxMrPerProcess := n }) config
  let config := fromEnv env "RDMA_INTERCEPT_MAX_MEMORY_PER_PROCESS" parseMemory
    (fun n c => { c with maxMemoryPerProcess := n }) config
  let config := fromEnv env "RDMA_INTERCEPT_ENABLE_MR_RATE_LIMIT" parseBool
    (fun b c => { c with enableMrRateLimit := b }) config
  let config := fromEnv env "RDMA_INTERCEPT_MAX_MR_OPS_PER_SEC" (parseNumber 0)
    (fun n c => { c with maxMrOpsPerSec := n }) config
  let config := fromEnv env "RDMA_INTERCEPT_MR_RATE_LIMIT_WINDOW_MS" (parseNumber 0)
    (fun n c => { c with mrRateLimitWindowMs := n }) config
  fromEnv env "RDMA_INTERCEPT_LOG_FILE_PATH" parseString
    (fun path c => { c with logFilePath := path }) config

/-! ## The file -/

/-- `DEFAULT_CONFIG_FILE`. -/
def defaultConfigFile : List Char := "/etc/rdma_intercept.conf".toList

/-- `ENV_CONFIG_FILE`. -/
def envConfigFile : List Char := "RDMA_INTERCEPT_CONFIG".toList

/-- The file that is read: the one asked for, or else the one that the
environment names. -/
def openConfig (files : Files) (env : Env) (configFile : Option (List Char)) :
    Option (List Char) :=
  match files (configFile.getD defaultConfigFile) with
  | some content => some content
  | none => (env envConfigFile).bind files

/-- What `strcspn(line, "\r\n")` passes over; a NUL byte ends the string too. -/
def notEol (c : Char) : Bool := c ≠ '\r' && c ≠ '\n' && c ≠ '\x00'

/-- `parse_config_line` on one text after another; lines that fail are only
reported. -/
def parseLines (texts : List (List Char)) (config : FullConfig) : FullConfig :=
  texts.foldl (fun config text => (parseConfigLine text config).2) config

/-- What the loop passes to `parse_config_line`: the results of `fgets` with a
buffer of 1024 bytes, each cut at its first line terminator. -/
def pieces (content : List Char) : List (List Char) :=
  (fgetsAll 1024 content).map (·.takeWhile notEol)

/-- `rdma_intercept_load_config`: the return value, and
`g_intercept_state.config` afterwards. -/
def rdmaInterceptLoadConfig (files : Files) (env : Env) (configFile : Option (List Char))
    (config : FullConfig) : Int × FullConfig :=
  let tempConfig := loadConfigFromEnv env config
  match openConfig files env configFile with
  | none => (0, tempConfig)
  | some content => (0, parseLines (pieces content) tempConfig)

/-! ## Settings in sequence -/

theorem config_keeps : Keeps (fun f c => Field.read c f) Setting.store Setting.field :=
  ⟨read_store⟩

/-- Store a setting, if there is one. -/
def storeIf (setting : Option Setting) (config : FullConfig) : FullConfig :=
  match setting with
  | some s => s.store config
  | none => config

theorem settle_snd {α : Type} {parsed : Option α} {set : α → FullConfig → FullConfig}
    {mk : α → Setting} (hset : ∀ a c, set a c = (mk a).store c) (config : FullConfig) :
    (settle parsed set config).2 = storeIf (parsed.map mk) config := by
  cases parsed with
  | none => rfl
  | some a => exact hset a config

theorem foldl_storeIf {ι : Type} (g : ι → Option Setting) (is : List ι) :
    ∀ config, is.foldl (fun c i => storeIf (g i) c) config =
      (is.filterMap g).foldl Setting.store config := by
  induction is with
  | nil => intro config; rfl
  | cons i is ih =>
      intro config
      rw [List.foldl_cons, ih, List.filterMap_cons]
      cases g i with
      | none | some => rfl

/-- What a line sets. -/
def lineSetting (line : List Char) : Option Setting :=
  if Skipped line then none else settingOf line

/-- The last setting for `f` in a sequence of lines. -/
def lastSetting (texts : List (List Char)) (f : Field) : Option Setting :=
  last Setting.field f (texts.filterMap lineSetting)

theorem parseConfigLine_snd (config : FullConfig) (line : List Char) :
    (parseConfigLine line config).2 = storeIf (lineSetting line) config := by
  rw [parseConfigLine_eq]
  unfold lineSetting
  by_cases h : Skipped line
  · rw [if_pos h, if_pos h]
    rfl
  · rw [if_neg h, if_neg h]
    cases settingOf line with
    | none | some => rfl

theorem parseLines_eq (texts : List (List Char)) (config : FullConfig) :
    parseLines texts config = (texts.filterMap lineSetting).foldl Setting.store config := by
  unfold parseLines
  simp only [parseConfigLine_snd]
  exact foldl_storeIf lineSetting texts config

theorem read_parseLines (texts : List (List Char)) (f : Field) (config : FullConfig) :
    f.read (parseLines texts config) = (lastSetting texts f).getD (f.read config) := by
  rw [parseLines_eq]
  exact read_foldl config_keeps f _ config

/-- The fields that the environment can set, in the order in which it is
asked. -/
def envFields : List Field :=
  [.enableQpControl, .maxQpPerProcess, .maxGlobalQp, .maxSendWrLimit, .maxRecvWrLimit,
    .allowRcQp, .allowUcQp, .allowUdQp, .enableMrControl, .maxMrPerProcess,
    .maxMemoryPerProcess, .enableMrRateLimit, .maxMrOpsPerSec, .mrRateLimitWindowMs,
    .logFilePath]

/-- The variable of a field. -/
def envName : Field → String
  | .enableQpControl => "RDMA_INTERCEPT_ENABLE_QP_CONTROL"
  | .maxQpPerProcess => "RDMA_INTERCEPT_MAX_QP_PER_PROCESS"
  | .maxGlobalQp => "RDMA_INTERCEPT_MAX_GLOBAL_QP"
  | .maxSendWrLimit => "RDMA_INTERCEPT_MAX_SEND_WR_LIMIT"
  | .maxRecvWrLimit => "RDMA_INTERCEPT_MAX_RECV_WR_LIMIT"
  | .allowRcQp => "RDMA_INTERCEPT_ALLOW_RC_QP"
  | .allowUcQp => "RDMA_INTERCEPT_ALLOW_UC_QP"
  | .allowUdQp => "RDMA_INTERCEPT_ALLOW_UD_QP"
  | .enableMrControl => "RDMA_INTERCEPT_ENABLE_MR_CONTROL"
  | .maxMrPerProcess => "RDMA_INTERCEPT_MAX_MR_PER_PROCESS"
  | .maxMemoryPerProcess => "RDMA_INTERCEPT_MAX_MEMORY_PER_PROCESS"
  | .enableMrRateLimit => "RDMA_INTERCEPT_ENABLE_MR_RATE_LIMIT"
  | .maxMrOpsPerSec => "RDMA_INTERCEPT_MAX_MR_OPS_PER_SEC"
  | .mrRateLimitWindowMs => "RDMA_INTERCEPT_MR_RATE_LIMIT_WINDOW_MS"
  | .logFilePath => "RDMA_INTERCEPT_LOG_FILE_PATH"
  | _ => ""

/-- The text of a field's variable, as a setting if it is valid. -/
def envText (env : Env) (f : Field) : Option Setting :=
  (env (envName f).toList).bind fun text => f.parse text

/-- The valid setting that the environment holds for a field. -/
def envSetting (env : Env) (f : Field) : Option Setting :=
  if f ∈ envFields then envText env f else none

/-- One variable stores what its text stands for. -/
theorem storeIf_envText (env : Env) (f : Field) {α : Type} {parse : List Char → Option α}
    {set : α → FullConfig → FullConfig} {mk : α → Setting}
    (hparse : ∀ text, f.parse text = (parse text).map mk)
    (hset : ∀ a c, set a c = (mk a).store c) {c c' : FullConfig} (hc : c' = c) :
    storeIf (envText env f) c' = fromEnv env (envName f) parse set c := by
  subst hc
  unfold fromEnv envText
  cases env (envName f).toList with
  | none => rfl
  | some text => rw [Option.bind_some, hparse, ← settle_snd hset]

theorem foldl_envFields (env : Env) (config : FullConfig) :
    envFields.foldl (fun c f => storeIf (envText env f) c) config =
      loadConfigFromEnv env config := by
  unfold loadConfigFromEnv envFields
  simp only [List.foldl_cons, List.foldl_nil]
  iterate 15 refine storeIf_envText env _ (by intro text; rfl) (by intro a c; rfl) ?_
  rfl

theorem read_loadConfigFromEnv (env : Env) (f : Field) (config : FullConfig) :
    f.read (loadConfigFromEnv env config) = (envSetting env f).getD (f.read config) := by
  have hfield : ∀ g s, envText env g = some s → s.field = g := by
    intro g s hs
    obtain ⟨text, -, hparse⟩ := Option.bind_eq_some_iff.mp hs
    exact field_of_parse hparse
  rw [← foldl_envFields, foldl_storeIf, envSetting, ← last_filterMap hfield]
  exact read_foldl config_keeps f _ config

/-- A configuration that differs from the default in every field. -/
def contrary : FullConfig where
  enableIntercept := false
  enableQpControl := true
  maxQpPerProcess := 1
  maxSendWrLimit := 1
  maxRecvWrLimit := 1
  allowRcQp := false
  allowUcQp := false
  allowUdQp := false
  maxGlobalQp := 1
  enableMrRateLimit := true
  maxMrOpsPerSec := 1
  mrRateLimitWindowMs := 1
  logQpCreation := false
  logAllOperations := true
  logLevel := .debug
  logFilePath := ⟨[], by decide⟩
  allowRqQp := false
  enableMrControl := true
  maxMrPerProcess := 1
  maxMemoryPerProcess := 1

/-- No value is in a field of every configuration. -/
theorem exists_read_ne (f : Field) (s : Setting) : ∃ config, f.read config ≠ s := by
  have hdiffer : f.read .default ≠ f.read contrary := by
    cases f <;> decide
  by_cases h : f.read .default = s
  · exact ⟨contrary, fun h' => hdiffer (h.trans h'.symm)⟩
  · exact ⟨.default, h⟩

/-! ## Lines and pieces -/

theorem load_of_open {files : Files} {env : Env} {configFile : Option (List Char)}
    {text : List Char} (h : openConfig files env configFile = some text) (config : FullConfig) :
    rdmaInterceptLoadConfig files env configFile config =
      (0, parseLines (pieces text) (loadConfigFromEnv env config)) := by
  unfold rdmaInterceptLoadConfig
  dsimp only
  rw [h]

/-- The file is read as its lines, in every environment. -/
def ReadByLine (text : List Char) : Prop :=
  ∀ files env configFile config, openConfig files env configFile = some text →
    rdmaInterceptLoadConfig files env configFile config =
      (0, parseLines (linesOf text) (loadConfigFromEnv env config))

/-- What the first piece keeps of a line: at most 1023 bytes, and nothing from
the first carriage return on. -/
def firstPiece (line : List Char) : List Char := (line.take 1023).takeWhile notEol

/-- A line whose text alone shows that it is read right.  Either everything
beyond its first piece is white space, or it is blank, a comment or without `=`,
and no `=` stands beyond its first 1023 bytes. -/
def Plain (line : List Char) : Prop :=
  (∀ c ∈ line.drop (firstPiece line).length, isSpace c = true) ∨
    ((Skipped line ∨ '=' ∉ line) ∧ '=' ∉ line.drop 1023)

instance (line : List Char) : Decidable (Plain line) :=
  have := List.decidableBAll (fun c => isSpace c = true) (line.drop (firstPiece line).length)
  inferInstanceAs (Decidable (_ ∨ _))

theorem firstPiece_starts (line : List Char) : firstPiece line <+: line :=
  (List.takeWhile_prefix notEol).trans (List.take_prefix 1023 line)

theorem firstPiece_append_drop (line : List Char) :
    firstPiece line ++ line.drop (firstPiece line).length = line := by
  have htake := List.prefix_iff_eq_take.mp (firstPiece_starts line)
  nth_rewrite 1 [htake]
  exact List.take_append_drop _ line

/-- The newline that the first piece may carry is cut off. -/
theorem takeWhile_take_append {line eol : List Char} (heol : eol = [] ∨ eol = ['\n']) :
    (line.take 1023 ++ eol).takeWhile notEol = firstPiece line := by
  have hcut : eol.takeWhile notEol = [] := by
    rcases heol with rfl | rfl <;> rfl
  rw [List.takeWhile_append]
  split
  · rename_i hall
    rw [hcut, List.append_nil, firstPiece]
    exact ((List.takeWhile_prefix notEol).eq_of_length hall).symm
  · rfl

theorem lineSetting_of_skipped {line : List Char} (h : Skipped line) : lineSetting line = none :=
  if_pos h

theorem lineSetting_of_notMem {line : List Char} (h : '=' ∉ line) : lineSetting line = none := by
  rw [lineSetting, settingOf, if_neg h, ite_self]

theorem skipped_of_space {line : List Char} (h : ∀ c ∈ line, isSpace c = true) :
    Skipped line := by
  left
  rw [List.dropWhile_eq_nil_iff.mpr h]
  rfl

/-- The beginning of a comment or a blank line is one. -/
theorem skipped_of_append {line rest : List Char} (h : Skipped (line ++ rest)) :
    Skipped line := by
  unfold Skipped at h ⊢
  rw [List.dropWhile_append] at h
  cases hdrop : line.dropWhile isSpace with
  | nil => exact .inl rfl
  | cons c front =>
      rw [hdrop] at h
      simpa using h

/-- What a line sets depends on what is left of it after trimming. -/
theorem lineSetting_of_trim {line line' : List Char}
    (h : trimWhitespace line = trimWhitespace line') : lineSetting line = lineSetting line' := by
  have hhead : (line.dropWhile isSpace).head? = (line'.dropWhile isSpace).head? := by
    rw [← head?_trim, ← head?_trim]
    exact congrArg List.head? h
  have hequals : '=' ∈ line ↔ '=' ∈ line' :=
    ⟨fun hmem => mem_of_mem_trim (h ▸ (trimmed_line hmem).1),
      fun hmem => mem_of_mem_trim (h ▸ (trimmed_line hmem).1)⟩
  have hsetting : settingOf line = settingOf line' := by
    unfold settingOf
    by_cases hmem : '=' ∈ line
    · obtain ⟨-, hkey, hvalue⟩ := trimmed_line hmem
      obtain ⟨-, hkey', hvalue'⟩ := trimmed_line (hequals.mp hmem)
      rw [if_pos hmem, if_pos (hequals.mp hmem), ← hkey, ← hvalue, ← hkey', ← hvalue', h]
    · rw [if_neg hmem, if_neg (mt hequals.mpr hmem)]
  have hskip : Skipped line ↔ Skipped line' := by
    unfold Skipped
    rw [hhead]
  unfold lineSetting
  simp only [hskip, hsetting]

/-- What the loop makes of a plain line is what the line sets. -/
theorem settings_line {line eol : List Char} (hline : '\n' ∉ line)
    (heol : eol = [] ∨ eol = ['\n']) (hne : line ++ eol ≠ []) (hplain : Plain line) :
    (pieces (line ++ eol)).filterMap lineSetting = [line].filterMap lineSetting := by
  obtain ⟨eol', later, hread, heol', hlater⟩ :=
    fgetsFrom_pieces (show 0 < 1023 by decide) hline heol hne
  have hpieces : pieces (line ++ eol) =
      firstPiece line :: later.map (·.takeWhile notEol) := by
    show (fgetsFrom 1023 1023 [] (line ++ eol)).map _ = _
    rw [hread, List.map_cons, takeWhile_take_append heol']
  -- whatever is in a later piece stands beyond the first 1023 bytes
  have hmem : ∀ piece ∈ later.map (·.takeWhile notEol), ∀ c ∈ piece,
      c ∈ line.drop 1023 ∨ c = '\n' := by
    intro piece hpiece c hc
    obtain ⟨whole, hwhole, rfl⟩ := List.mem_map.mp hpiece
    have hin := (hlater whole hwhole).subset ((List.takeWhile_sublist _).subset hc)
    rcases List.mem_append.mp hin with hin | hin
    · exact .inl hin
    · rcases heol with rfl | rfl
      · cases hin
      · exact .inr (List.mem_singleton.mp hin)
  have hboth : lineSetting (firstPiece line) = lineSetting line ∧
      ∀ piece ∈ later.map (·.takeWhile notEol), lineSetting piece = none := by
    rcases hplain with hspace | ⟨hnothing, hequals⟩
    · refine ⟨?_, fun piece hpiece => lineSetting_of_skipped (skipped_of_space fun c hc => ?_)⟩
      · nth_rewrite 2 [← firstPiece_append_drop line]
        exact lineSetting_of_trim (trim_append_of_all isSpace hspace _).symm
      · rcases hmem piece hpiece c hc with hin | rfl
        · have hle : (firstPiece line).length ≤ 1023 :=
            (List.takeWhile_prefix notEol).length_le.trans (List.length_take_le 1023 line)
          exact hspace c ((List.drop_subset_drop_left line hle) hin)
        · rfl
    · refine ⟨?_, fun piece hpiece => lineSetting_of_notMem fun hc => ?_⟩
      · rcases hnothing with hskip | hnone
        · have hfirst : Skipped (firstPiece line) := by
            rw [← firstPiece_append_drop line] at hskip
            exact skipped_of_append hskip
          rw [lineSetting_of_skipped hskip, lineSetting_of_skipped hfirst]
        · rw [lineSetting_of_notMem hnone,
            lineSetting_of_notMem fun hc => hnone ((firstPiece_starts line).subset hc)]
      · rcases hmem piece hpiece '=' hc with hin | heq
        · exact hequals hin
        · exact absurd heq (by decide)
  rw [hpieces, List.filterMap_cons, hboth.1, List.filterMap_eq_nil_iff.mpr hboth.2,
    List.filterMap_cons, List.filterMap_nil]

theorem pieces_cons (line rest : List Char) :
    pieces (line ++ '\n' :: rest) = pieces (line ++ ['\n']) ++ pieces rest := by
  have hend : (line ++ ['\n']).getLast? = some '\n' := List.getLast?_concat
  have hread := fgetsFrom_append 1023 rest 1023 [] hend
  rw [List.append_assoc, List.singleton_append] at hread
  unfold pieces fgetsAll
  rw [hread, List.map_append]

/-- A file of plain lines sets what its lines set, one after another. -/
theorem settings_pieces : ∀ text, (∀ line ∈ linesOf text, Plain line) →
    (pieces text).filterMap lineSetting = (linesOf text).filterMap lineSetting := by
  refine text_induction ?_ ?_ ?_
  · intro _
    rfl
  · intro line hline hne hplain
    rw [linesOf_single hline hne] at hplain ⊢
    have hsettings := settings_line hline (.inl rfl) (by simpa using hne)
      (hplain line List.mem_cons_self)
    rwa [List.append_nil] at hsettings
  · intro line rest hline ih hplain
    rw [linesOf_cons hline] at hplain ⊢
    have hsettings := settings_line hline (.inr rfl) (by simp) (hplain line List.mem_cons_self)
    rw [pieces_cons, List.filterMap_append, hsettings,
      ih fun l hl => hplain l (List.mem_cons_of_mem line hl), ← List.filterMap_append]
    rfl

/-- Two sequences of texts have the same effect if they set the same. -/
theorem parseLines_eq_iff (texts texts' : List (List Char)) :
    (∀ config, parseLines texts config = parseLines texts' config) ↔
      ∀ f, lastSetting texts f = lastSetting texts' f := by
  constructor
  · intro h f
    refine (getD_ext (exists_read_ne f)).mp fun config => ?_
    rw [← read_parseLines, ← read_parseLines, h]
  · intro h config
    refine config_ext fun f => ?_
    rw [read_parseLines, read_parseLines, h]

/-- Nothing is set by an empty environment. -/
theorem loadConfigFromEnv_none (config : FullConfig) :
    loadConfigFromEnv (fun _ => none) config = config := rfl

theorem readByLine_iff_settings (text : List Char) :
    ReadByLine text ↔ ∀ f, lastSetting (pieces text) f = lastSetting (linesOf text) f := by
  rw [← parseLines_eq_iff]
  constructor
  · intro h config
    have hopen : openConfig (fun _ => some text) (fun _ => none) none = some text := rfl
    have hload := h (fun _ => some text) (fun _ => none) none config hopen
    rw [load_of_open hopen, loadConfigFromEnv_none] at hload
    exact congrArg Prod.snd hload
  · intro h files env configFile config hopen
    rw [load_of_open hopen, h]

/-- **Reading by lines.**  A file is read as its lines if each of them is plain,
terminated or not.  For any file it is read so if and only if, for every field,
the last setting among the pieces that `fgets` delivers is the last setting
among the lines. -/
theorem readByLine_of_plain (text : List Char) :
    ((∀ line ∈ linesOf text, Plain line) → ReadByLine text) ∧
    (ReadByLine text ↔ ∀ f, lastSetting (pieces text) f = lastSetting (linesOf text) f) := by
  refine ⟨?_, readByLine_iff_settings text⟩
  intro hplain
  rw [readByLine_iff_settings]
  intro f
  rw [lastSetting, settings_pieces text hplain]
  rfl

/-- A comment, a setting with a carriage return, and a last line without a
newline. -/
def shortFile : List Char :=
  "# limits\nmax_global_qp = 50\r\nmax_qp_per_process=7".toList

theorem readByLine_short : ReadByLine shortFile := by
  refine (readByLine_of_plain shortFile).1 ?_
  have hlines : linesOf shortFile = ["# limits".toList, "max_global_qp = 50\r".toList,
      "max_qp_per_process=7".toList] := by decide +kernel
  rw [hlines, List.forall_mem_cons, List.forall_mem_cons, List.forall_mem_singleton]
  exact ⟨by decide +kernel, by decide +kernel, by decide +kernel⟩

/-- What a long comment sets is what stands behind its first 1023 bytes. -/
theorem settings_comment {start : List Char} (hlength : start.length = 1023)
    (hstart : '\n' ∉ start) (hskip : Skipped start) (rest : List Char) :
    (pieces (start ++ rest)).filterMap lineSetting = (pieces rest).filterMap lineSetting := by
  have hne : start ≠ [] := by
    rintro rfl
    cases hlength
  have hread := fgetsFrom_full 1023 rest hstart hne []
  rw [hlength, List.reverse_nil, List.nil_append] at hread
  have hpieces : pieces (start ++ rest) = start.takeWhile notEol :: pieces rest := by
    show (fgetsFrom 1023 1023 [] (start ++ rest)).map _ = _
    rw [hread]
    rfl
  have hfirst : Skipped (start.takeWhile notEol) := by
    rw [← List.takeWhile_append_dropWhile (p := notEol) (l := start)] at hskip
    exact skipped_of_append hskip
  rw [hpieces, List.filterMap_cons, lineSetting_of_skipped hfirst]

/-- For a comment that is alone in its file the converse is exact: it is read
right if and only if nothing that follows its first 1023 bytes is a setting. -/
theorem comment_readByLine_iff {start rest : List Char} (hlength : start.length = 1023)
    (hline : '\n' ∉ start ++ rest) (hskip : Skipped (start ++ rest)) :
    ReadByLine (start ++ rest ++ ['\n']) ↔
      ∀ piece ∈ pieces (rest ++ ['\n']), lineSetting piece = none := by
  have hstart : '\n' ∉ start := fun hmem => hline (List.mem_append_left _ hmem)
  have hlines : (linesOf (start ++ rest ++ ['\n'])).filterMap lineSetting = [] := by
    rw [linesOf_cons hline, List.filterMap_cons, lineSetting_of_skipped hskip]
    rfl
  rw [readByLine_iff_settings, ← List.filterMap_eq_nil_iff]
  unfold lastSetting
  rw [hlines, List.append_assoc, settings_comment hlength hstart (skipped_of_append hskip)]
  exact forall_last_eq_none_iff

/-- The beginning of a comment that fills the buffer. -/
def commentStart : List Char := '#' :: List.replicate 1022 'x'

/-- A comment of 1045 bytes that ends in the text of a setting. -/
def longComment : List Char := commentStart ++ "enable_qp_control=true".toList

theorem newline_notMem_commentStart : '\n' ∉ commentStart := by
  rw [commentStart, List.mem_cons, List.mem_replicate]
  decide

theorem length_commentStart : commentStart.length = 1023 := by
  rw [commentStart, List.length_cons, List.length_replicate]

/-- The end of a long comment takes effect as a setting. -/
theorem long_comment_sets :
    Skipped longComment ∧ '\n' ∉ longComment ∧
      (rdmaInterceptLoadConfig (fun _ => some (longComment ++ ['\n'])) (fun _ => none) none
        .default).2 = { FullConfig.default with enableQpControl := true } ∧
      parseLines (linesOf (longComment ++ ['\n'])) (loadConfigFromEnv (fun _ => none) .default) =
        .default ∧
      ¬ReadByLine (longComment ++ ['\n']) := by
  have hskip : Skipped longComment := .inr (.inl rfl)
  have hclean : '\n' ∉ longComment := by
    rw [longComment, List.mem_append, not_or]
    exact ⟨newline_notMem_commentStart, by decide⟩
  have hlines : parseLines (linesOf (longComment ++ ['\n']))
      (loadConfigFromEnv (fun _ => none) .default) = .default := by
    rw [loadConfigFromEnv_none, linesOf_cons hclean, parseLines_eq, List.filterMap_cons,
      lineSetting_of_skipped hskip]
    rfl
  have hpieces : pieces ("enable_qp_control=true".toList ++ ['\n']) =
      ["enable_qp_control=true".toList] := by decide +kernel
  have hload : (rdmaInterceptLoadConfig (fun _ => some (longComment ++ ['\n']))
      (fun _ => none) none .default).2 = { FullConfig.default with enableQpControl := true } := by
    rw [load_of_open rfl, parseLines_eq, longComment, List.append_assoc,
      settings_comment length_commentStart newline_notMem_commentStart
        (skipped_of_append hskip), hpieces]
    decide +kernel
  have hmisread : ¬ReadByLine (longComment ++ ['\n']) := by
    rw [longComment, comment_readByLine_iff length_commentStart hclean hskip, hpieces,
      List.forall_mem_singleton]
    decide +kernel
  exact ⟨hskip, hclean, hload, hlines, hmisread⟩

/-! ## Environment and file -/

/-- The environment's settings stand, whatever the file says; every other field
is the file's, or as it was. -/
def EnvDecides (env : Env) (text : List Char) : Prop :=
  ∀ files configFile config, openConfig files env configFile = some text →
    ∀ f, f.read (rdmaInterceptLoadConfig files env configFile config).2 =
      (envSetting env f).getD ((lastSetting (linesOf text) f).getD (f.read config))

/-- The file comes second and decides. -/
theorem read_load {files : Files} {env : Env} {configFile : Option (List Char)}
    {text : List Char} (h : openConfig files env configFile = some text)
    (config : FullConfig) (f : Field) :
    f.read (rdmaInterceptLoadConfig files env configFile config).2 =
      (lastSetting (pieces text) f).getD ((envSetting env f).getD (f.read config)) := by
  rw [load_of_open h, read_parseLines, read_loadConfigFromEnv]

/-- Which of two orders of precedence is followed makes no difference exactly if
the first source has nothing to say against the second. -/
theorem precedence_iff (f : Field) (env piece line : Option Setting) :
    (∀ config, piece.getD (env.getD (f.read config)) = env.getD (line.getD (f.read config))) ↔
      (∀ s, env = some s → piece = none ∨ piece = some s) ∧ (env = none → piece = line) := by
  cases env with
  | none =>
      simp only [Option.getD_none, getD_ext (exists_read_ne f)]
      simp
  | some s =>
      cases piece with
      | none => simp
      | some t =>
          have hconst : (FullConfig → t = s) ↔ t = s :=
            ⟨fun h => h .default, fun h _ => h⟩
          simpa using hconst

/-- What the pieces of a file set decides whether the environment stands. -/
theorem envDecides_iff_pieces (env : Env) (text : List Char) :
    EnvDecides env text ↔
      ∀ f, (∀ s, envSetting env f = some s →
          lastSetting (pieces text) f = none ∨ lastSetting (pieces text) f = some s) ∧
        (envSetting env f = none →
          lastSetting (pieces text) f = lastSetting (linesOf text) f) := by
  constructor
  · intro h f
    refine (precedence_iff f _ _ _).mp fun config => ?_
    have hopen : openConfig (fun _ => some text) env none = some text := rfl
    rw [← read_load hopen]
    exact h (fun _ => some text) none config hopen f
  · intro h files configFile config hopen f
    rw [read_load hopen]
    exact (precedence_iff f _ _ _).mpr (h f) config

/-- **Environment and file.**  For a file of plain lines, terminated or not, the
environment's settings stand if and only if no field that the environment sets
gets another value from the last line for it.  For any file they stand if and
only if the pieces that `fgets` delivers set no field otherwise than the
environment does, and agree with the lines on the other fields.  Without a file
they always stand. -/
theorem envDecides_iff (env : Env) (text : List Char) :
    ((∀ line ∈ linesOf text, Plain line) → (EnvDecides env text ↔
      ∀ f s, envSetting env f = some s →
        lastSetting (linesOf text) f = none ∨ lastSetting (linesOf text) f = some s)) ∧
    (EnvDecides env text ↔
      ∀ f, (∀ s, envSetting env f = some s →
          lastSetting (pieces text) f = none ∨ lastSetting (pieces text) f = some s) ∧
        (envSetting env f = none →
          lastSetting (pieces text) f = lastSetting (linesOf text) f)) ∧
    (∀ files configFile config f, openConfig files env configFile = none →
      f.read (rdmaInterceptLoadConfig files env configFile config).2 =
        (envSetting env f).getD (f.read config)) := by
  refine ⟨?_, envDecides_iff_pieces env text, ?_⟩
  · intro hplain
    have hsame : ∀ f, lastSetting (pieces text) f = lastSetting (linesOf text) f := by
      intro f
      rw [lastSetting, settings_pieces text hplain]
      rfl
    simp only [envDecides_iff_pieces, hsame, implies_true, and_true]
  · intro files configFile config f hopen
    unfold rdmaInterceptLoadConfig
    dsimp only
    rw [hopen]
    exact read_loadConfigFromEnv env f config

/-- An environment with one variable. -/
def envFive (name : List Char) : Option (List Char) :=
  if name = "RDMA_INTERCEPT_MAX_QP_PER_PROCESS".toList then some "5".toList else none

/-- Two lines, the second without a newline. -/
def otherFieldFile : List Char := "# limits\nmax_global_qp=50".toList

theorem envDecides_other_field : EnvDecides envFive otherFieldFile := by
  have hlines : linesOf otherFieldFile = ["# limits".toList, "max_global_qp=50".toList] := by
    decide +kernel
  have hset : ["# limits".toList, "max_global_qp=50".toList].filterMap lineSetting =
      [.maxGlobalQp 50] := by decide +kernel
  have hplain : ∀ line ∈ linesOf otherFieldFile, Plain line := by
    rw [hlines, List.forall_mem_cons, List.forall_mem_singleton]
    exact ⟨by decide +kernel, by decide +kernel⟩
  refine ((envDecides_iff envFive otherFieldFile).1 hplain).mpr ?_
  intro f s hs
  by_cases hf : f = .maxGlobalQp
  · have hnone : envSetting envFive .maxGlobalQp = none := by decide +kernel
    rw [hf, hnone] at hs
    cases hs
  · left
    rw [lastSetting, hlines, hset, last_cons]
    exact if_neg (fun h => hf h.symm)

/-- The limit of the environment is 5 and valid; the file's 10 is in force. -/
theorem file_overrides_environment :
    envSetting envFive .maxQpPerProcess = some (.maxQpPerProcess 5) ∧
      (rdmaInterceptLoadConfig (fun _ => some "max_qp_per_process=10\n".toList) envFive
        none .default).2.maxQpPerProcess = 10 ∧
      ¬EnvDecides envFive "max_qp_per_process=10\n".toList := by
  have henv : envSetting envFive .maxQpPerProcess = some (.maxQpPerProcess 5) := by
    decide +kernel
  have hload : (rdmaInterceptLoadConfig (fun _ => some "max_qp_per_process=10\n".toList)
      envFive none .default).2.maxQpPerProcess = 10 := by decide +kernel
  refine ⟨henv, hload, ?_⟩
  intro h
  have hread := h (fun _ => some "max_qp_per_process=10\n".toList) none .default rfl
    .maxQpPerProcess
  rw [henv, Field.read, hload] at hread
  exact absurd hread (by decide)

end MtRdma.Ports.ConfigLoad
