import MtRdma.Verified.Handles
import MtRdma.Verified.Runs
import MtRdma.Ports.ConfigLoad

/-!
# The handle of the log file (`logger.c`, `intercept_core.c`, `config.c`)

`g_intercept_state.log_file` is opened by `rdma_intercept_init`, replaced by
`rdma_intercept_set_log_file` and `rdma_intercept_rotate_log`, and closed by
`rdma_intercept_cleanup`.  Each function is followed as it is written: what it
returns, the state it leaves, and what it does with file handles, in order.
Messages on `stderr`, and the renaming of the old log, touch no handle; the
return value of `rename` is not looked at.

Three exits close the handle and leave it in `log_file`: a replacement or a
rotation whose `fopen` fails, and an initialisation that fails after the log
has been opened.  The next message, replacement or rotation then goes to a
closed handle.  If no call of a run takes one of these exits, every operation
of the run finds its handle open, and a replacement or rotation that fails
changes nothing (`log_handle_usable`).
-/

namespace MtRdma.Ports.LogHandle

open Verified.CText
open Verified.Runs
open Verified.Handles
open ConfigLines
open ConfigLoad

/-! ## The functions -/

/-- The part of `g_intercept_state` that the logger works with. -/
structure LogState where
  initialized : Bool
  config : FullConfig
  logFile : Option Nat

/-- What the system answers during one call: the configuration file and the
environment, the handle it gets when the configuration file is opened, whether
the directory of the log exists or can be made, the handle of the log file,
and what the dynamic linker finds. -/
structure Answers where
  files : Files
  env : Env
  configHandle : Nat
  statDir : Bool
  mkdirDir : Bool
  fopenLog : Option Nat
  dlopenVerbs : Bool
  dlsymCreateQp : Bool
  dlsymRegMr : Bool
  dlsymDeregMr : Bool

/-- What a call returns, leaves, and does with handles. -/
structure Outcome where
  ret : Int
  state : LogState
  ops : List (Op Nat)

/-- The order of `log_level_t`. -/
def rank : LogLevel → Int
  | .debug => 0
  | .info => 1
  | .warn => 2
  | .error => 3
  | .fatal => 4

/-- `rdma_intercept_log`: one `fprintf`, and an `fflush` for errors and in
debug mode. -/
def rdmaInterceptLog (level : LogLevel) (s : LogState) : List (Op Nat) :=
  if !s.initialized || decide (rank level < rank s.config.logLevel) then []
  else
    match s.logFile with
    | none => []
    | some h =>
        if rank .error ≤ rank level ∨ rank s.config.logLevel ≤ rank .debug then
          [.used h, .used h]
        else [.used h]

/-- `ensure_log_directory`: `false` is the return value `-1`. -/
def ensureLogDirectory (a : Answers) (logPath : List Char) : Bool :=
  let dirPath := logPath.take (maxConfigFilePath - 1)
  match strrchr '/' dirPath with
  | none => true
  | some lastSlash =>
      if lastSlash = dirPath then true
      else a.statDir || a.mkdirDir

/-- `fclose` of a handle that may be `NULL`. -/
def closing : Option Nat → List (Op Nat)
  | none => []
  | some h => [.closed h]

/-- `rdma_intercept_set_log_file`.  The handle is never `stdout`, since it comes
from `fopen`. -/
def rdmaInterceptSetLogFile (a : Answers) (logFilePath : Option (List Char)) (s : LogState) :
    Outcome :=
  match logFilePath with
  | none => ⟨-1, s, []⟩
  | some path =>
      if h : path.length < maxConfigFilePath then
        if ensureLogDirectory a path then
          match a.fopenLog with
          | none => ⟨-1, s, closing s.logFile⟩
          | some newFile =>
              let s' : LogState :=
                { s with
                  config := { s.config with logFilePath := ⟨path, h⟩ }
                  logFile := some newFile }
              ⟨0, s', closing s.logFile ++ .opened newFile :: rdmaInterceptLog .info s'⟩
        else ⟨-1, s, []⟩
      else ⟨-1, s, []⟩

/-- `rdma_intercept_rotate_log`. -/
def rdmaInterceptRotateLog (a : Answers) (s : LogState) : Outcome :=
  match s.logFile with
  | none => ⟨-1, s, []⟩
  | some h =>
      if s.config.logFilePath.val = [] then ⟨-1, s, []⟩
      else
        match a.fopenLog with
        | none => ⟨-1, s, [.closed h]⟩
        | some newFile =>
            let s' : LogState := { s with logFile := some newFile }
            ⟨0, s', .closed h :: .opened newFile :: rdmaInterceptLog .info s'⟩

/-- What a caller can pass to `rdma_intercept_set_config`: any number as log
level, and any text as path; the other fields are those of `config`. -/
structure ConfigArgument where
  config : FullConfig
  logLevel : Int
  logFilePath : List Char

/-- The level of a number from `LOG_LEVEL_DEBUG` to `LOG_LEVEL_FATAL`. -/
def levelOfRank (n : Int) : Option LogLevel :=
  [.debug, .info, .warn, .error, .fatal].find? fun level => rank level = n

/-- The checks of `rdma_intercept_set_config`. -/
def ConfigArgument.checked (c : ConfigArgument) : Option FullConfig :=
  match levelOfRank c.logLevel with
  | none => none
  | some level =>
      if h : c.logFilePath.length < maxConfigFilePath then
        some { c.config with logLevel := level, logFilePath := ⟨c.logFilePath, h⟩ }
      else none

/-- The new log file of `rdma_intercept_set_config`, with the new configuration
in place. -/
def switchLogFile (a : Answers) (s : LogState) : Outcome :=
  if s.config.logFilePath.val = [] then ⟨0, s, []⟩
  else rdmaInterceptSetLogFile a (some s.config.logFilePath.val) s

/-- `rdma_intercept_set_config`.  Whether the log file could be replaced is not
looked at. -/
def rdmaInterceptSetConfig (a : Answers) (config : Option ConfigArgument) (s : LogState) :
    Outcome :=
  match config.bind ConfigArgument.checked with
  | none => ⟨-1, s, []⟩
  | some config =>
      let r := switchLogFile a { s with config := config }
      ⟨0, r.state, r.ops ++ rdmaInterceptLog .info r.state⟩

/-- `libibverbs.so` is found, with the three functions that must be in it. -/
def Answers.linked (a : Answers) : Bool :=
  a.dlopenVerbs && a.dlsymCreateQp && a.dlsymRegMr && a.dlsymDeregMr

/-- What `rdma_intercept_load_config` does with the configuration file.  Its
messages are not written, since the library is not initialised yet. -/
def readConfig (a : Answers) : List (Op Nat) :=
  match openConfig a.files a.env none with
  | none => []
  | some _ => [.opened a.configHandle, .closed a.configHandle]

/-- `rdma_intercept_init`.  The four exits after the log has been opened all
close it. -/
def rdmaInterceptInit (a : Answers) (s : LogState) : Outcome :=
  if s.initialized then ⟨0, s, []⟩
  else
    let s' : LogState :=
      { s with
        config := (rdmaInterceptLoadConfig a.files a.env none s.config).2
        logFile := a.fopenLog }
    match a.fopenLog with
    | none => ⟨-1, s', readConfig a⟩
    | some h =>
        if a.linked then
          ⟨0, { s' with initialized := true },
            readConfig a ++ .opened h :: List.replicate 5 (.used h)⟩
        else ⟨-1, s', readConfig a ++ [.opened h, .closed h]⟩

/-- `rdma_intercept_cleanup`. -/
def rdmaInterceptCleanup (s : LogState) : Outcome :=
  if s.initialized then
    match s.logFile with
    | none => ⟨0, { s with initialized := false }, []⟩
    | some h => ⟨0, { s with initialized := false, logFile := none }, [.used h, .closed h]⟩
  else ⟨0, s, []⟩

/-! ## Runs -/

/-- A call, with what the system answers during it. -/
inductive LogCall where
  | init (a : Answers)
  | setLogFile (a : Answers) (path : Option (List Char))
  | setConfig (a : Answers) (config : Option ConfigArgument)
  | rotateLog (a : Answers)
  | log (level : LogLevel)
  | cleanup

/-- What a call does. -/
def LogCall.exec (s : LogState) : LogCall → Outcome
  | .init a => rdmaInterceptInit a s
  | .setLogFile a path => rdmaInterceptSetLogFile a path s
  | .setConfig a config => rdmaInterceptSetConfig a config s
  | .rotateLog a => rdmaInterceptRotateLog a s
  | .log level => ⟨0, s, rdmaInterceptLog level s⟩
  | .cleanup => rdmaInterceptCleanup s

/-- The logger, and the handles that are open in the process. -/
structure LogWorld where
  state : LogState
  opened : Finset Nat

/-- The logger when the process starts. -/
def LogWorld.initial (opened : Finset Nat) : LogWorld :=
  ⟨⟨false, .default, none⟩, opened⟩

/-- What an outcome makes of the world. -/
def LogWorld.next (w : LogWorld) (o : Outcome) : LogWorld :=
  ⟨o.state, after w.opened o.ops⟩

/-- One call.  The system hands out no handle that is open. -/
def LogStep (w : LogWorld) (c : LogCall) (w' : LogWorld) : Prop :=
  Along Fresh w.opened (c.exec w.state).ops ∧ w' = w.next (c.exec w.state)

/-- The handle in force, if there is one, is open. -/
def Usable (w : LogWorld) : Prop := ∀ h, w.state.logFile = some h → h ∈ w.opened

/-- A call that returns `-1` leaves the handle in force as it was, and open, and
the configured path as it was. -/
def KeepsLog (w : LogWorld) (o : Outcome) : Prop :=
  o.ret = -1 → Usable (w.next o) ∧ o.state.logFile = w.state.logFile ∧
    o.state.config.logFilePath = w.state.config.logFilePath

/-- What is asked of a call that can fail half way: replacing the log file,
also from within `rdma_intercept_set_config`, and rotating it. -/
def FailsCleanly (w : LogWorld) : LogCall → Prop
  | .setLogFile a path => KeepsLog w (rdmaInterceptSetLogFile a path w.state)
  | .rotateLog a => KeepsLog w (rdmaInterceptRotateLog a w.state)
  | .setConfig a config => ∀ c, config.bind ConfigArgument.checked = some c →
      KeepsLog ⟨{ w.state with config := c }, w.opened⟩
        (switchLogFile a { w.state with config := c })
  | _ => True

/-! ## Calls that keep the handle -/

/-- The path is taken, and its directory is there. -/
def PathAccepted (a : Answers) (path : Option (List Char)) : Prop :=
  ∃ p, path = some p ∧ p.length < maxConfigFilePath ∧ ensureLogDirectory a p = true

/-- Once the old log file has been closed, the new one can be opened; once a log
file has been opened, the library can be linked. -/
def Supported (s : LogState) : LogCall → Prop
  | .init a => s.initialized = false → a.fopenLog ≠ none → a.linked = true
  | .setLogFile a path => s.logFile ≠ none → PathAccepted a path → a.fopenLog ≠ none
  | .rotateLog a => s.logFile ≠ none → s.config.logFilePath.val ≠ [] → a.fopenLog ≠ none
  | .setConfig a config => ∀ c, config.bind ConfigArgument.checked = some c →
      s.logFile ≠ none → c.logFilePath.val ≠ [] → PathAccepted a (some c.logFilePath.val) →
      a.fopenLog ≠ none
  | _ => True

/-! ### Messages -/

theorem mem_log {level : LogLevel} {s : LogState} {op : Op Nat}
    (h : op ∈ rdmaInterceptLog level s) : ∃ x, s.logFile = some x ∧ op = .used x := by
  unfold rdmaInterceptLog at h
  split at h
  · cases h
  · split at h
    · cases h
    · rename_i x hx
      refine ⟨x, hx, ?_⟩
      split at h <;> simpa using h

theorem after_log (t : Finset Nat) (level : LogLevel) (s : LogState) :
    after t (rdmaInterceptLog level s) = t := by
  apply after_of_used
  intro op hop
  obtain ⟨x, -, rfl⟩ := mem_log hop
  exact ⟨x, rfl⟩

theorem finds_log {t : Finset Nat} {s : LogState} (h : ∀ x, s.logFile = some x → x ∈ t)
    (level : LogLevel) : Along Finds t (rdmaInterceptLog level s) := by
  apply finds_of_used
  intro op hop
  obtain ⟨x, hx, rfl⟩ := mem_log hop
  exact ⟨x, h x hx, rfl⟩

/-! ### Replacing the log file -/

/-- What replacing the log file can come to, if it gets as far as closing the
old one exactly when `accepted` holds. -/
inductive Replacing (accepted : Prop) (a : Answers) (s : LogState) : Outcome → Prop
  | refused (ret : Int) : ¬accepted → Replacing accepted a s ⟨ret, s, []⟩
  | lost : accepted → a.fopenLog = none → Replacing accepted a s ⟨-1, s, closing s.logFile⟩
  | replaced (s' : LogState) (newFile : Nat) : a.fopenLog = some newFile →
      s'.logFile = some newFile → Replacing accepted a s
        ⟨0, s', closing s.logFile ++ .opened newFile :: rdmaInterceptLog .info s'⟩

theorem setLogFile_replacing (a : Answers) (path : Option (List Char)) (s : LogState) :
    Replacing (PathAccepted a path) a s (rdmaInterceptSetLogFile a path s) := by
  unfold rdmaInterceptSetLogFile
  split
  · apply Replacing.refused
    rintro ⟨p, hp, -⟩
    cases hp
  · rename_i path
    split
    · rename_i hlength
      split
      · rename_i hdir
        have haccepted : PathAccepted a (some path) := ⟨path, rfl, hlength, hdir⟩
        split
        · rename_i hopen
          exact .lost haccepted hopen
        · rename_i newFile hopen
          exact .replaced _ newFile hopen rfl
      · rename_i hdir
        apply Replacing.refused
        rintro ⟨p, hp, -, hdir'⟩
        cases hp
        exact hdir hdir'
    · rename_i hlength
      apply Replacing.refused
      rintro ⟨p, hp, hlength', -⟩
      cases hp
      exact hlength hlength'

theorem rotateLog_replacing (a : Answers) (s : LogState) :
    Replacing (s.logFile ≠ none ∧ s.config.logFilePath.val ≠ []) a s
      (rdmaInterceptRotateLog a s) := by
  unfold rdmaInterceptRotateLog
  split
  · rename_i hnone
    exact .refused (-1) fun h => h.1 hnone
  · rename_i h hsome
    have hclosing : [.closed h] = closing s.logFile := by
      rw [hsome]
      rfl
    split
    · rename_i hpath
      exact .refused (-1) fun h => h.2 hpath
    · rename_i hpath
      have haccepted : s.logFile ≠ none ∧ s.config.logFilePath.val ≠ [] := by
        refine ⟨?_, hpath⟩
        rw [hsome]
        exact Option.some_ne_none h
      split
      · rename_i hopen
        rw [hclosing]
        exact .lost haccepted hopen
      · rename_i newFile hopen
        show Replacing _ a s ⟨0, { s with logFile := some newFile },
          [.closed h] ++ .opened newFile :: rdmaInterceptLog .info _⟩
        rw [hclosing]
        exact .replaced _ newFile hopen rfl

theorem switchLogFile_replacing (a : Answers) (s : LogState) :
    Replacing (s.config.logFilePath.val ≠ [] ∧ PathAccepted a (some s.config.logFilePath.val))
      a s (switchLogFile a s) := by
  unfold switchLogFile
  split
  · rename_i hpath
    exact .refused 0 fun h => h.1 hpath
  · rename_i hpath
    have h := setLogFile_replacing a (some s.config.logFilePath.val) s
    generalize rdmaInterceptSetLogFile a (some s.config.logFilePath.val) s = o at h
    cases h with
    | refused ret hnot => exact .refused ret fun h => hnot h.2
    | lost haccepted hopen => exact .lost ⟨hpath, haccepted⟩ hopen
    | replaced s' newFile hopen hfile => exact .replaced s' newFile hopen hfile

section Replacing

variable {accepted : Prop} {a : Answers} {w : LogWorld} {o : Outcome}

/-- The old handle is closed once. -/
theorem finds_closing (h : Usable w) : Along Finds w.opened (closing w.state.logFile) := by
  cases hfile : w.state.logFile with
  | none => exact along_nil _ _
  | some x => exact (finds_closed _ _ _).mpr ⟨h x hfile, along_nil _ _⟩

theorem Replacing.finds (ho : Replacing accepted a w.state o) (h : Usable w) :
    Along Finds w.opened o.ops := by
  cases ho with
  | refused ret _ => exact along_nil _ _
  | lost _ _ => exact finds_closing h
  | replaced s' newFile _ hfile =>
      rw [along_append, finds_opened]
      refine ⟨finds_closing h, finds_log (fun x hx => ?_) .info⟩
      obtain rfl : newFile = x := Option.some.inj (hfile.symm.trans hx)
      exact Finset.mem_insert_self _ _

/-- The handle in force is open afterwards unless the old one was closed and no
new one was opened. -/
theorem Replacing.usable_iff (ho : Replacing accepted a w.state o) (h : Usable w) :
    Usable (w.next o) ↔ (w.state.logFile ≠ none → accepted → a.fopenLog ≠ none) := by
  cases ho with
  | refused ret hnot => exact ⟨fun _ _ haccepted => absurd haccepted hnot, fun _ => h⟩
  | lost haccepted hopen =>
      constructor
      · intro husable hfile _
        obtain ⟨x, hx⟩ := Option.ne_none_iff_exists'.mp hfile
        have hmem : x ∈ after w.opened (closing w.state.logFile) := husable x hx
        rw [hx] at hmem
        exact absurd hmem (Finset.notMem_erase x w.opened)
      · intro hsupported x hx
        exact absurd hopen (hsupported (hx ▸ Option.some_ne_none x) haccepted)
  | replaced s' newFile hopen hfile =>
      constructor
      · intro _ _ _
        rw [hopen]
        exact Option.some_ne_none newFile
      · intro _ x hx
        obtain rfl : newFile = x := Option.some.inj (hfile.symm.trans hx)
        show newFile ∈ after w.opened (_ ++ .opened newFile :: rdmaInterceptLog .info s')
        rw [after_append, after_opened, after_log]
        exact Finset.mem_insert_self _ _

/-- A replacement that fails changes nothing in the state; only the handle can
be lost. -/
theorem Replacing.keepsLog (ho : Replacing accepted a w.state o) (h : Usable (w.next o)) :
    KeepsLog w o := by
  intro hret
  refine ⟨h, ?_⟩
  cases ho with
  | refused | lost => exact ⟨rfl, rfl⟩
  | replaced s' newFile _ _ => cases hret

end Replacing

/-! ### The other calls -/

theorem finds_readConfig (t : Finset Nat) (a : Answers) : Along Finds t (readConfig a) := by
  unfold readConfig
  split
  · exact along_nil _ _
  · rw [finds_opened, finds_closed]
    exact ⟨Finset.mem_insert_self _ _, along_nil _ _⟩

section Calls

variable {w : LogWorld}

theorem finds_init (a : Answers) : Along Finds w.opened (rdmaInterceptInit a w.state).ops := by
  unfold rdmaInterceptInit
  split
  · exact along_nil _ _
  · dsimp only
    split
    · exact finds_readConfig w.opened a
    · rename_i h _
      have hopened : h ∈ insert h (after w.opened (readConfig a)) := Finset.mem_insert_self _ _
      split
      · rw [along_append, finds_opened]
        refine ⟨finds_readConfig w.opened a, finds_of_used fun op hop => ⟨h, hopened, ?_⟩⟩
        exact List.eq_of_mem_replicate hop
      · rw [along_append, finds_opened, finds_closed]
        exact ⟨finds_readConfig w.opened a, hopened, along_nil _ _⟩

theorem usable_init_iff (h : Usable w) (a : Answers) :
    Usable (w.next (rdmaInterceptInit a w.state)) ↔
      (w.state.initialized = false → a.fopenLog ≠ none → a.linked = true) := by
  unfold rdmaInterceptInit
  cases hinit : w.state.initialized with
  | true => exact ⟨fun _ hfalse => (nomatch hfalse), fun _ => h⟩
  | false =>
      cases hopen : a.fopenLog with
      | none => exact ⟨fun _ _ hne => absurd rfl hne, fun _ x hx => nomatch hx⟩
      | some file =>
          cases hlinked : a.linked with
          | true =>
              refine ⟨fun _ _ _ => rfl, fun _ x hx => ?_⟩
              obtain rfl : file = x := Option.some.inj hx
              show file ∈ after w.opened (readConfig a ++ .opened file :: _)
              rw [after_append, after_opened,
                after_of_used fun op hop => ⟨file, List.eq_of_mem_replicate hop⟩]
              exact Finset.mem_insert_self _ _
          | false =>
              constructor
              · intro husable _ _
                have hmem : file ∈ after w.opened (readConfig a ++ [.opened file, .closed file]) :=
                  husable file rfl
                rw [after_append, after_opened, after_closed, after_nil] at hmem
                exact absurd hmem (Finset.notMem_erase file _)
              · intro hsupported
                exact nomatch hsupported rfl (Option.some_ne_none file)

theorem finds_cleanup (h : Usable w) :
    Along Finds w.opened (rdmaInterceptCleanup w.state).ops := by
  unfold rdmaInterceptCleanup
  split
  · split
    · exact along_nil _ _
    · rename_i x hx
      rw [finds_used, finds_closed]
      exact ⟨h x hx, h x hx, along_nil _ _⟩
  · exact along_nil _ _

theorem usable_cleanup (h : Usable w) : Usable (w.next (rdmaInterceptCleanup w.state)) := by
  unfold rdmaInterceptCleanup
  split
  · split
    · exact h
    · intro x hx
      cases hx
  · exact h

theorem setConfig_of_checked {config : Option ConfigArgument} {c : FullConfig}
    (hc : config.bind ConfigArgument.checked = some c) (a : Answers) (s : LogState) :
    rdmaInterceptSetConfig a config s =
      ⟨0, (switchLogFile a { s with config := c }).state,
        (switchLogFile a { s with config := c }).ops ++
          rdmaInterceptLog .info (switchLogFile a { s with config := c }).state⟩ := by
  rw [rdmaInterceptSetConfig, hc]

theorem setConfig_of_refused {config : Option ConfigArgument}
    (hc : config.bind ConfigArgument.checked = none) (a : Answers) (s : LogState) :
    rdmaInterceptSetConfig a config s = ⟨-1, s, []⟩ := by
  rw [rdmaInterceptSetConfig, hc]

/-- The world in which `rdma_intercept_set_config` replaces the log file. -/
def LogWorld.withConfig (w : LogWorld) (c : FullConfig) : LogWorld :=
  ⟨{ w.state with config := c }, w.opened⟩

/-- The message at the end of `rdma_intercept_set_config` leaves the handles as
the replacement left them. -/
theorem usable_setConfig_iff {config : Option ConfigArgument} {c : FullConfig}
    (hc : config.bind ConfigArgument.checked = some c) (a : Answers) :
    Usable (w.next (rdmaInterceptSetConfig a config w.state)) ↔
      Usable ((w.withConfig c).next (switchLogFile a (w.withConfig c).state)) := by
  rw [setConfig_of_checked hc]
  unfold Usable LogWorld.next
  dsimp only
  rw [after_append, after_log]
  rfl

/-- One call keeps the handle usable exactly if the system supports it. -/
theorem usable_next_iff (h : Usable w) (c : LogCall) :
    Usable (w.next (c.exec w.state)) ↔ Supported w.state c := by
  cases c with
  | init a => exact usable_init_iff h a
  | setLogFile a path => exact (setLogFile_replacing a path w.state).usable_iff h
  | rotateLog a =>
      refine ((rotateLog_replacing a w.state).usable_iff h).trans ?_
      exact ⟨fun hs hfile hpath => hs hfile ⟨hfile, hpath⟩, fun hs hfile hacc => hs hfile hacc.2⟩
  | log level =>
      refine ⟨fun _ => trivial, fun _ x hx => ?_⟩
      show x ∈ after w.opened (rdmaInterceptLog level w.state)
      rw [after_log]
      exact h x hx
  | cleanup => exact ⟨fun _ => trivial, fun _ => usable_cleanup h⟩
  | setConfig a config =>
      cases hc : config.bind ConfigArgument.checked with
      | none =>
          show Usable (w.next (rdmaInterceptSetConfig a config w.state)) ↔ _
          rw [setConfig_of_refused hc]
          exact ⟨fun _ c hsome => absurd (hc.symm.trans hsome) nofun, fun _ => h⟩
      | some c =>
          have husable : Usable (w.withConfig c) := h
          refine (usable_setConfig_iff hc a).trans ?_
          refine ((switchLogFile_replacing a _).usable_iff husable).trans ?_
          constructor
          · intro hs c' hc' hfile hpath haccepted
            obtain rfl : c = c' := Option.some.inj (hc.symm.trans hc')
            exact hs hfile ⟨hpath, haccepted⟩
          · intro hs hfile hacc
            exact hs c hc hfile hacc.1 hacc.2

/-- A supported call finds every handle it uses or closes open. -/
theorem finds_exec (h : Usable w) {c : LogCall} (hsupported : Supported w.state c) :
    Along Finds w.opened (c.exec w.state).ops := by
  cases c with
  | init a => exact finds_init a
  | setLogFile a path => exact (setLogFile_replacing a path w.state).finds h
  | rotateLog a => exact (rotateLog_replacing a w.state).finds h
  | log level => exact finds_log h level
  | cleanup => exact finds_cleanup h
  | setConfig a config =>
      show Along Finds w.opened (rdmaInterceptSetConfig a config w.state).ops
      cases hc : config.bind ConfigArgument.checked with
      | none =>
          rw [setConfig_of_refused hc]
          exact along_nil _ _
      | some c =>
          have husable : Usable (w.withConfig c) := h
          have hafter := (usable_setConfig_iff hc a).mp ((usable_next_iff h _).mpr hsupported)
          rw [setConfig_of_checked hc, along_append]
          exact ⟨(switchLogFile_replacing a (w.withConfig c).state).finds husable,
            finds_log hafter .info⟩

/-- A supported call that fails leaves the log as it was. -/
theorem failsCleanly_of_supported (h : Usable w) {c : LogCall}
    (hsupported : Supported w.state c) : FailsCleanly w c := by
  have hafter := (usable_next_iff h c).mpr hsupported
  cases c with
  | init | log | cleanup => trivial
  | setLogFile a path => exact (setLogFile_replacing a path w.state).keepsLog hafter
  | rotateLog a => exact (rotateLog_replacing a w.state).keepsLog hafter
  | setConfig a config =>
      intro c hc
      exact (switchLogFile_replacing a (w.withConfig c).state).keepsLog
        ((usable_setConfig_iff hc a).mp hafter)

/-- Once the handle in force is closed, the next replacement that gets as far as
closing it closes it a second time. -/
theorem not_finds_of_stale (hstale : ¬Usable w) {a : Answers} {path : Option (List Char)}
    (haccepted : PathAccepted a path) :
    ¬Along Finds w.opened (rdmaInterceptSetLogFile a path w.state).ops := by
  intro hfinds
  apply hstale
  intro x hx
  have hclosing : Along Finds w.opened (closing w.state.logFile) := by
    have ho := setLogFile_replacing a path w.state
    generalize rdmaInterceptSetLogFile a path w.state = o at ho hfinds
    cases ho with
    | refused _ hnot => exact absurd haccepted hnot
    | lost _ _ => exact hfinds
    | replaced _ _ _ _ => exact ((along_append _ _ _ _).mp hfinds).1
  rw [hx] at hclosing
  exact ((finds_closed _ _ _).mp hclosing).1

end Calls

/-! ## The handle over a run -/

/-- A step that the system supports. -/
def SupportedStep (w : LogWorld) (c : LogCall) (w' : LogWorld) : Prop :=
  LogStep w c w' ∧ Supported w.state c

theorem usable_of_run {opened : Finset Nat} {calls : List LogCall} {w : LogWorld}
    (hrun : Run SupportedStep (.initial opened) calls w) : Usable w := by
  have hinitial : Usable (.initial opened) := by
    intro x hx
    cases hx
  refine Run.invariant hinitial ?_ hrun
  rintro w₁ c w₂ husable ⟨⟨-, rfl⟩, hsupported⟩
  exact (usable_next_iff husable c).mpr hsupported

/-- In every run of supported calls, each call finds the handles it uses or closes
open, and one that fails leaves the handle in force open and the path as it
was.  Which calls those are is exact (`usable_next_iff`). -/
theorem log_handle_usable {opened : Finset Nat} {calls : List LogCall} {w w' : LogWorld}
    {c : LogCall} (hrun : Run SupportedStep (.initial opened) calls w)
    (hstep : SupportedStep w c w') :
    Along Finds w.opened (c.exec w.state).ops ∧ FailsCleanly w c :=
  ⟨finds_exec (usable_of_run hrun) hstep.2, failsCleanly_of_supported (usable_of_run hrun) hstep.2⟩

/-- A system without configuration on which everything is found, and `fopen`
answers `file`. -/
def plainAnswers (file : Option Nat) : Answers where
  files := fun _ => none
  env := fun _ => none
  configHandle := 0
  statDir := true
  mkdirDir := true
  fopenLog := file
  dlopenVerbs := true
  dlsymCreateQp := true
  dlsymRegMr := true
  dlsymDeregMr := true

/-- The logger after an initialisation that opened handle `1`. -/
def loggingWorld : LogWorld :=
  (LogWorld.initial ∅).next (rdmaInterceptInit (plainAnswers (some 1)) (LogWorld.initial ∅).state)

theorem logStep_loggingWorld :
    LogStep (.initial ∅) (.init (plainAnswers (some 1))) loggingWorld := by
  refine ⟨?_, rfl⟩
  show Along Fresh ∅ (.opened 1 :: List.replicate 5 (.used 1))
  rw [fresh_opened]
  exact ⟨Finset.notMem_empty 1, trivial, trivial, trivial, trivial, trivial, trivial⟩

/-- `rdma_intercept_set_log_file` with a path that needs no directory. -/
def moveLog (file : Option Nat) : LogCall := .setLogFile (plainAnswers file) (some ['x'])

/-- The log is moved to another file, which gets the next handle. -/
theorem log_handle_moved :
    Along Finds loggingWorld.opened ((moveLog (some 2)).exec loggingWorld.state).ops ∧
      FailsCleanly loggingWorld (moveLog (some 2)) := by
  have hstep : SupportedStep loggingWorld (moveLog (some 2))
      (loggingWorld.next ((moveLog (some 2)).exec loggingWorld.state)) := by
    refine ⟨⟨?_, rfl⟩, fun _ _ => Option.some_ne_none 2⟩
    show Along Fresh {1} [.closed 1, .opened 2, .used 2]
    rw [fresh_closed, fresh_opened]
    exact ⟨by decide, trivial, trivial⟩
  exact log_handle_usable (.snoc .start ⟨logStep_loggingWorld, fun _ _ => rfl⟩) hstep

/-- The new log file cannot be opened: the call returns `-1`, the old handle is
closed but stays in force, and the next message is written to it. -/
theorem failed_move_leaves_closed_handle :
    Run LogStep (.initial ∅) [.init (plainAnswers (some 1)), moveLog none]
        (loggingWorld.next ((moveLog none).exec loggingWorld.state)) ∧
      ((moveLog none).exec loggingWorld.state).ret = -1 ∧
      ¬FailsCleanly loggingWorld (moveLog none) ∧
      ¬Along Finds (loggingWorld.next ((moveLog none).exec loggingWorld.state)).opened
        ((LogCall.log .fatal).exec ((moveLog none).exec loggingWorld.state).state).ops := by
  have hopened : (loggingWorld.next ((moveLog none).exec loggingWorld.state)).opened =
      ({1} : Finset Nat).erase 1 := rfl
  refine ⟨?_, rfl, ?_, ?_⟩
  · have hmove : LogStep loggingWorld (moveLog none)
        (loggingWorld.next ((moveLog none).exec loggingWorld.state)) :=
      ⟨⟨trivial, trivial⟩, rfl⟩
    exact .snoc (.snoc .start logStep_loggingWorld) hmove
  · intro hclean
    have hmem : 1 ∈ ({1} : Finset Nat).erase 1 := (hclean rfl).1 1 rfl
    exact Finset.notMem_erase 1 {1} hmem
  · rw [hopened]
    show ¬Along Finds _ [.used 1, .used 1]
    rw [finds_used]
    intro hfinds
    exact Finset.notMem_erase 1 {1} hfinds.1

end MtRdma.Ports.LogHandle
