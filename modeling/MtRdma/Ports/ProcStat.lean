import MtRdma.Ports.SharedMemory

/-!
# The start time in `/proc/<pid>/stat`

`shm_read_proc_start_time` cuts the line behind the last closing parenthesis
into tokens.  The first token is the state letter, field 3; the loop passes
over nineteen more, which are fields 4 to 22, and the token returned is the
one after those.  The value of the function is therefore field 23, the virtual
memory size, whatever the name of the command contains.
-/

namespace MtRdma.Ports.ProcStat

open Verified.CText
open SharedMemory

/-- A line of `/proc/<pid>/stat`: fields 1 to 3, fields 4 to 21, `starttime`,
`vsize`, and what follows. -/
structure StatLine where
  pid : Nat
  comm : List Char
  state : Char
  ppidToItrealvalue : List Int
  starttime : UInt64
  vsize : UInt64
  rest : List Int
  comm_line : '\n' ∉ comm
  state_letter : state.isAlpha = true
  field_count : ppidToItrealvalue.length = 18

namespace StatLine

/-- The tokens behind the command that the loop passes over: the state letter
and fields 4 to 22. -/
def skipped (l : StatLine) : List (List Char) :=
  [l.state] :: l.ppidToItrealvalue.map signedDecimal ++ [signedDecimal l.starttime.toNat]

/-- Fields 24 and on. -/
def behindVsize (l : StatLine) : List Char :=
  l.rest.flatMap fun v => ' ' :: signedDecimal v

/-- The line behind the command. -/
def fields (l : StatLine) : List Char :=
  l.skipped.flatMap (· ++ [' ']) ++ (decimal l.vsize.toNat ++ l.behindVsize)

def line (l : StatLine) : List Char :=
  (decimal l.pid ++ ' ' :: '(' :: l.comm) ++ ')' :: ' ' :: l.fields

/-- The content of the file. -/
def text (l : StatLine) : List Char := l.line ++ ['\n']

/-! ## The characters of a line -/

variable (l : StatLine) {c : Char}

theorem not_mem_skipped (hdigit : c.isDigit = false) (hletter : c.isAlpha = false)
    (hminus : c ≠ '-') : ∀ t ∈ l.skipped, c ∉ t := by
  intro t ht
  unfold skipped at ht
  rw [List.cons_append, List.mem_cons, List.mem_append, List.mem_map, List.mem_singleton] at ht
  rcases ht with rfl | ⟨v, _, rfl⟩ | rfl
  · intro hmem
    rw [List.mem_singleton.mp hmem, l.state_letter] at hletter
    cases hletter
  · exact not_mem_signedDecimal hdigit hminus v
  · exact not_mem_signedDecimal hdigit hminus _

theorem not_mem_behindVsize (hdigit : c.isDigit = false) (hspace : c ≠ ' ') (hminus : c ≠ '-') :
    c ∉ l.behindVsize := by
  unfold behindVsize
  intro hmem
  obtain ⟨v, _, hmem⟩ := List.mem_flatMap.mp hmem
  rcases List.mem_cons.mp hmem with heq | hmem
  · exact hspace heq
  · exact not_mem_signedDecimal hdigit hminus v hmem

theorem not_mem_fields (hdigit : c.isDigit = false) (hletter : c.isAlpha = false)
    (hspace : c ≠ ' ') (hminus : c ≠ '-') : c ∉ l.fields := by
  unfold fields
  rw [List.mem_append, List.mem_append, List.mem_flatMap]
  rintro (⟨t, ht, hmem⟩ | hmem | hmem)
  · rcases List.mem_append.mp hmem with hmem | hmem
    · exact l.not_mem_skipped hdigit hletter hminus t ht hmem
    · exact hspace (List.mem_singleton.mp hmem)
  · rw [isDigit_of_mem_decimal hmem] at hdigit
    cases hdigit
  · exact l.not_mem_behindVsize hdigit hspace hminus hmem

theorem newline_not_mem_line : '\n' ∉ l.line := by
  have hfields := l.not_mem_fields (c := '\n') (by decide) (by decide) (by decide) (by decide)
  unfold line
  simp only [List.mem_append, List.mem_cons, not_or]
  refine ⟨⟨?_, by decide, by decide, l.comm_line⟩, by decide, by decide, hfields⟩
  intro hmem
  exact absurd (isDigit_of_mem_decimal hmem) (by decide)

/-! ## What the function reads -/

theorem skipped_length : l.skipped.length = 20 := by
  unfold skipped
  rw [List.length_append, List.length_cons, List.length_map, l.field_count]
  rfl

theorem skipped_tokens : ∀ t ∈ l.skipped, t ≠ [] ∧ ' ' ∉ t := by
  intro t ht
  refine ⟨?_, l.not_mem_skipped (by decide) (by decide) (by decide) t ht⟩
  unfold skipped at ht
  rw [List.cons_append, List.mem_cons, List.mem_append, List.mem_map, List.mem_singleton] at ht
  rcases ht with rfl | ⟨v, _, rfl⟩ | rfl
  · exact List.cons_ne_nil _ _
  · exact signedDecimal_ne_nil v
  · exact signedDecimal_ne_nil _

/-- Behind the tokens passed over, the next one is the number of field 23. -/
theorem vsize_token : ∃ rest, NoDigit rest ∧ ∃ toks,
    strtok ' ' (decimal l.vsize.toNat ++ (l.behindVsize ++ ['\n'])) =
      (decimal l.vsize.toNat ++ rest) :: toks := by
  have hspace : ' ' ∉ decimal l.vsize.toNat := by
    intro hmem
    exact absurd (isDigit_of_mem_decimal hmem) (by decide)
  cases hrest : l.rest with
  | nil =>
      have hlast : ' ' ∉ decimal l.vsize.toNat ++ ['\n'] := by
        rw [List.mem_append, not_or]
        exact ⟨hspace, by decide⟩
      refine ⟨['\n'], fun c hc => Option.some.inj hc ▸ by decide, [], ?_⟩
      unfold behindVsize
      rw [hrest]
      exact strtok_last (by simp) hlast
  | cons v rest =>
      refine ⟨[], fun c hc => (nomatch hc), ?_⟩
      unfold behindVsize
      rw [hrest, List.flatMap_cons, List.append_assoc, List.cons_append,
        strtok_token (decimal_ne_nil _) hspace, List.append_nil]
      exact ⟨_, rfl⟩

/-- **The function reads field 23.** -/
theorem reads_vsize (hlength : l.text.length < 1024) :
    shmReadProcStartTime (some l.text) = l.vsize := by
  have hline : l.line.length < 1023 := by
    unfold text at hlength
    rw [List.length_append, List.length_singleton] at hlength
    omega
  have hfgets : fgetsAll 1024 l.text = [l.line ++ ['\n']] := by
    unfold fgetsAll text
    rw [fgetsFrom_line 1023 l.newline_not_mem_line [] 1023 [] hline]
    rfl
  have hclosing : strrchr ')' (l.line ++ ['\n']) = some (')' :: ' ' :: (l.fields ++ ['\n'])) := by
    have hfields := l.not_mem_fields (c := ')') (by decide) (by decide) (by decide) (by decide)
    unfold line
    rw [List.append_assoc, List.cons_append, List.cons_append]
    refine strrchr_append ')' _ ?_
    simp only [List.mem_cons, List.mem_append, not_or]
    exact ⟨by decide, hfields, by decide, List.not_mem_nil⟩
  obtain ⟨rest, hrest, toks, htoken⟩ := l.vsize_token
  have htokens : (strtok ' ' (l.fields ++ ['\n'])).drop 20 =
      (decimal l.vsize.toNat ++ rest) :: toks := by
    unfold fields
    rw [List.append_assoc, List.append_assoc, strtok_tokens l.skipped_tokens, ← l.skipped_length,
      List.drop_left, htoken]
  unfold shmReadProcStartTime
  simp only [hfgets, hclosing, List.drop_succ_cons, List.drop_zero, htokens]
  rw [strtoul_decimal l.vsize.toNat_lt hrest]
  exact UInt64.ofNat_toNat

end StatLine

/-- A process whose command is named `a) (b`, started at 42. -/
def sampleLine (vsize : UInt64) : StatLine where
  pid := 100
  comm := "a) (b".toList
  state := 'S'
  ppidToItrealvalue := [1, 100, 100, 0, -1, 0, 0, 0, 0, 0, 0, 0, 0, 0, 20, 0, 1, 0]
  starttime := 42
  vsize := vsize
  rest := [7]
  comm_line := by decide
  state_letter := by decide
  field_count := rfl

/-- **When the start time is read.**  For every well-formed line the function
returns field 22 exactly if field 23 has the same value. -/
theorem start_time_read_iff (l : StatLine) (hlength : l.text.length < 1024) :
    shmReadProcStartTime (some l.text) = l.starttime ↔ l.vsize = l.starttime := by
  rw [l.reads_vsize hlength]

theorem start_time_read_iff_at_42 :
    (sampleLine 42).text.length < 1024 ∧ shmReadProcStartTime (some (sampleLine 42).text) = 42 :=
  ⟨by decide, (start_time_read_iff (sampleLine 42) (by decide)).mpr rfl⟩

/-- With 4096 bytes of virtual memory the start time is read as 4096. -/
theorem start_time_read_as_4096 :
    (sampleLine 4096).text.length < 1024 ∧ (sampleLine 4096).starttime = 42 ∧
      shmReadProcStartTime (some (sampleLine 4096).text) = 4096 :=
  ⟨by decide, rfl, by decide⟩

end MtRdma.Ports.ProcStat
