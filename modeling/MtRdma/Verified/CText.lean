import Mathlib.Algebra.Order.Ring.Int

/-!
# The C text routines used by the sources

Texts are `List Char`, without the terminating NUL.  A `Char` stands for one
byte: lengths, buffer sizes and positions count bytes, and what a C program
reads as a multibyte character is a sequence of `Char`s here.  Each routine
follows the C library contract for the arguments the sources pass to it: base
ten, a single delimiter, and an LP64 `long`.
-/

namespace MtRdma.Verified.CText

variable {tail token : List Char} {delim : Char}

/-- `isspace` in the C locale. -/
def isSpace (c : Char) : Bool :=
  c = ' ' || c = '\t' || c = '\n' || c = '\x0b' || c = '\x0c' || c = '\r'

/-- Value of the decimal digits at the head of a text, after `acc`. -/
def digitsVal : Nat → List Char → Nat
  | acc, [] => acc
  | acc, c :: cs =>
      if c.isDigit then digitsVal (acc * 10 + (c.toNat - '0'.toNat)) cs else acc

/-- The optional sign and the digits of an integer, after leading space:
whether a minus sign was read, and the magnitude. -/
def signedDigits (s : List Char) : Bool × Nat :=
  match s.dropWhile isSpace with
  | '-' :: cs => (true, digitsVal 0 cs)
  | '+' :: cs => (false, digitsVal 0 cs)
  | cs => (false, digitsVal 0 cs)

/-- `strtoul(s, NULL, 10)`, which is also `strtoull` on LP64: out-of-range
magnitudes saturate, and a minus sign negates in the unsigned type. -/
def strtoul (s : List Char) : UInt64 :=
  let (neg, v) := signedDigits s
  if v < 2 ^ 64 then
    if neg then 0 - UInt64.ofNat v else UInt64.ofNat v
  else UInt64.ofNat (2 ^ 64 - 1)

/-- `strtol(s, NULL, 10)`, saturating at both ends of `long`. -/
def strtol (s : List Char) : Int :=
  let (neg, v) := signedDigits s
  if neg then max (-(v : Int)) (-2 ^ 63) else min (v : Int) (2 ^ 63 - 1)

/-- `atoi(s)`: the low 32 bits of `strtol`. -/
def atoi (s : List Char) : Int32 :=
  Int32.ofInt (strtol s)

/-- `strstr(hay, needle)`: the suffix of `hay` at the first occurrence. -/
def strstr (needle : List Char) : List Char → Option (List Char)
  | [] => if needle = [] then some [] else none
  | c :: cs =>
      if needle.isPrefixOf (c :: cs) then some (c :: cs) else strstr needle cs

/-- `strrchr(s, ch)`: the suffix of `s` at the last occurrence. -/
def strrchr (ch : Char) : List Char → Option (List Char)
  | [] => none
  | c :: cs =>
      match strrchr ch cs with
      | some t => some t
      | none => if c = ch then some (c :: cs) else none

/-- The tokens a `strtok_r` loop with one delimiter returns, given the
characters `cur` of the current token in reverse. -/
def strtokFrom (delim : Char) : List Char → List Char → List (List Char)
  | cur, [] => if cur = [] then [] else [cur.reverse]
  | cur, c :: cs =>
      if c = delim then
        if cur = [] then strtokFrom delim [] cs
        else cur.reverse :: strtokFrom delim [] cs
      else strtokFrom delim (c :: cur) cs

/-- All tokens of `s`. -/
def strtok (delim : Char) (s : List Char) : List (List Char) :=
  strtokFrom delim [] s

/-- The successive results of `fgets` with room for `cap` characters: `room`
is what is left for the current result, `cur` holds it in reverse. -/
def fgetsFrom (cap : Nat) : Nat → List Char → List Char → List (List Char)
  | _, cur, [] => if cur = [] then [] else [cur.reverse]
  | room, cur, c :: cs =>
      if c = '\n' ∨ room ≤ 1 then
        (c :: cur).reverse :: fgetsFrom cap cap [] cs
      else fgetsFrom cap (room - 1) (c :: cur) cs

/-- Everything a loop `while (fgets(buf, size, f))` reads from a file. -/
def fgetsAll (size : Nat) (content : List Char) : List (List Char) :=
  fgetsFrom (size - 1) (size - 1) [] content

/-- The conversion `%<width>s` of `sscanf`: the word after leading space, and
what follows it.  A missing word is a matching failure. -/
def scanfWord (width : Nat) (s : List Char) : Option (List Char × List Char) :=
  let word := ((s.dropWhile isSpace).take width).takeWhile fun c => !isSpace c
  if word = [] then none else some (word, (s.dropWhile isSpace).drop word.length)

/-- The conversion `%u` of `sscanf`: at least one digit after leading space and
a sign; the value is the low half of `strtoul`. -/
def scanfUnsigned (s : List Char) : Option UInt32 :=
  let digits := match s.dropWhile isSpace with
    | '-' :: cs => cs
    | '+' :: cs => cs
    | cs => cs
  if digits.head?.any Char.isDigit then some (strtoul s).toUInt32 else none

/-! ## Searching -/

/-- A text that `strstr` finds nothing in does not contain the needle. -/
theorem strstr_eq_none_iff (needle : List Char) (s : List Char) :
    strstr needle s = none ↔ ¬needle <:+: s := by
  induction s with
  | nil => simp [strstr]
  | cons c cs ih =>
      unfold strstr
      by_cases hpre : needle.isPrefixOf (c :: cs)
      · rw [if_pos hpre]
        have hmem : needle <:+: c :: cs := (List.isPrefixOf_iff_prefix.mp hpre).isInfix
        simp [hmem]
      · rw [if_neg hpre, ih, List.infix_cons_iff]
        have hnot : ¬needle <+: c :: cs := fun h => hpre (List.isPrefixOf_iff_prefix.mpr h)
        simp [hnot]

/-- What comes before the first `mark`. -/
theorem takeWhile_ne_append {mark : Char} {pre : List Char} (hpre : mark ∉ pre)
    (post : List Char) : (pre ++ mark :: post).takeWhile (· ≠ mark) = pre := by
  have hall : ∀ c ∈ pre, decide (c ≠ mark) = true := by
    intro c hc
    exact decide_eq_true fun h => hpre (h ▸ hc)
  rw [List.takeWhile_append_of_pos hall]
  simp

/-- Text before the needle that lacks one of the needle's characters, taken
at its first place, does not hide a first occurrence. -/
theorem strstr_append {mark : Char} {front : List Char} (hfront : mark ∉ front)
    (back tail : List Char) :
    ∀ lead : List Char, mark ∉ lead →
      strstr (front ++ mark :: back) (lead ++ ((front ++ mark :: back) ++ tail)) =
        some ((front ++ mark :: back) ++ tail) := by
  intro lead
  induction lead with
  | nil =>
      intro _
      have hpre : (front ++ mark :: back).isPrefixOf ((front ++ mark :: back) ++ tail) :=
        List.isPrefixOf_iff_prefix.mpr (List.prefix_append _ _)
      rw [List.nil_append]
      generalize hs : (front ++ mark :: back) ++ tail = s at hpre
      cases s with
      | nil => simp at hs
      | cons c cs => simp [strstr, hpre]
  | cons c lead ih =>
      intro hlead
      have hrest : mark ∉ lead := fun h => hlead (List.mem_cons_of_mem c h)
      have hnot : ¬(front ++ mark :: back).isPrefixOf
          (c :: (lead ++ ((front ++ mark :: back) ++ tail))) := by
        intro hpre
        obtain ⟨rest, hrest'⟩ := List.isPrefixOf_iff_prefix.mp hpre
        -- the first `mark` comes later in the text than in the needle
        have htake := congrArg (List.takeWhile (· ≠ mark)) hrest'
        have hboth : mark ∉ c :: lead ++ front := by
          intro h
          rcases List.mem_append.mp h with h | h
          · exact hlead h
          · exact hfront h
        have hlater := takeWhile_ne_append hboth (back ++ tail)
        rw [List.append_assoc, List.cons_append, takeWhile_ne_append hfront] at htake
        simp only [List.append_assoc, List.cons_append] at htake hlater
        rw [hlater] at htake
        have hlen := congrArg List.length htake
        simp only [List.length_cons, List.length_append] at hlen
        omega
      rw [List.cons_append]
      unfold strstr
      rw [if_neg hnot]
      exact ih hrest

/-! ## Numbers -/

/-- The text does not go on with a digit. -/
def NoDigit (tail : List Char) : Prop := ∀ c ∈ tail.head?, c.isDigit = false

theorem digitsVal_append_noDigit (digits : List Char) (hdigits : ∀ c ∈ digits, c.isDigit = true)
    (htail : NoDigit tail) :
    ∀ acc, digitsVal acc (digits ++ tail) = digitsVal acc digits := by
  induction digits with
  | nil =>
      intro acc
      cases tail with
      | nil => rfl
      | cons c tail =>
          have hc : c.isDigit = false := htail c rfl
          simp [digitsVal, hc]
  | cons d digits ih =>
      intro acc
      have hd : d.isDigit = true := hdigits d List.mem_cons_self
      simp only [List.cons_append, digitsVal, hd, if_true]
      exact ih (fun c hc => hdigits c (List.mem_cons_of_mem d hc)) _

theorem isSpace_of_isDigit {d : Char} (hd : d.isDigit = true) : isSpace d = false := by
  by_contra h
  simp only [isSpace, Bool.not_eq_false, Bool.or_eq_true, decide_eq_true_eq] at h
  rcases h with ((((h | h) | h) | h) | h) | h <;> subst h <;> cases hd

/-- A digit is neither space nor a sign. -/
theorem signedDigits_of_noDigit {digits : List Char} (hne : digits ≠ [])
    (hdigits : ∀ c ∈ digits, c.isDigit = true) (htail : NoDigit tail) :
    signedDigits (digits ++ tail) = (false, digitsVal 0 digits) := by
  cases digits with
  | nil => exact absurd rfl hne
  | cons d digits =>
      have hd : d.isDigit = true := hdigits d List.mem_cons_self
      have hval := digitsVal_append_noDigit (d :: digits) hdigits htail 0
      unfold signedDigits
      rw [List.cons_append, List.dropWhile_cons_of_neg (by simp [isSpace_of_isDigit hd])]
      split
      · rename_i heq; cases heq; exact absurd hd (by decide)
      · rename_i heq; cases heq; exact absurd hd (by decide)
      · rw [← hval]; rfl

theorem signedDigits_of_digits {digits : List Char} (hne : digits ≠ [])
    (hdigits : ∀ c ∈ digits, c.isDigit = true) {c : Char} (hc : c.isDigit = false)
    (tail : List Char) :
    signedDigits (digits ++ c :: tail) = (false, digitsVal 0 digits) :=
  signedDigits_of_noDigit hne hdigits fun _ hd => Option.some.inj hd ▸ hc

/-! ## Printed numbers -/

/-- The digits that `%u` and `%llu` print. -/
def decimal (n : Nat) : List Char := Nat.toDigits 10 n

/-- What `%d` prints. -/
def signedDecimal : Int → List Char
  | .ofNat n => decimal n
  | .negSucc n => '-' :: decimal (n + 1)

theorem isDigit_of_mem_decimal {n : Nat} {c : Char} (h : c ∈ decimal n) : c.isDigit = true :=
  Nat.isDigit_of_mem_toDigits (by decide) (by decide) h

theorem decimal_ne_nil (n : Nat) : decimal n ≠ [] := Nat.toDigits_ne_nil

theorem signedDecimal_ne_nil (v : Int) : signedDecimal v ≠ [] := by
  cases v with
  | ofNat n => exact decimal_ne_nil n
  | negSucc n => exact List.cons_ne_nil _ _

/-- A printed number has no other characters than digits and a sign. -/
theorem not_mem_signedDecimal {c : Char} (hdigit : c.isDigit = false) (hminus : c ≠ '-')
    (v : Int) : c ∉ signedDecimal v := by
  have hdecimal : ∀ n, c ∉ decimal n := by
    intro n hmem
    rw [isDigit_of_mem_decimal hmem] at hdigit
    cases hdigit
  cases v with
  | ofNat n => exact hdecimal n
  | negSucc n =>
      intro hmem
      rcases List.mem_cons.mp hmem with hsign | hmem
      · exact hminus hsign
      · exact hdecimal (n + 1) hmem

theorem digitsVal_eq_ofDigitChars (digits : List Char)
    (hdigits : ∀ c ∈ digits, c.isDigit = true) :
    ∀ acc, digitsVal acc digits = Nat.ofDigitChars 10 digits acc := by
  induction digits with
  | nil => intro acc; rfl
  | cons d digits ih =>
      intro acc
      have hd : d.isDigit = true := hdigits d List.mem_cons_self
      rw [Nat.ofDigitChars_cons, digitsVal, if_pos hd, Nat.mul_comm]
      exact ih (fun c hc => hdigits c (List.mem_cons_of_mem d hc)) _

/-- **A printed number reads back as itself.** -/
theorem signedDigits_decimal (n : Nat) (htail : NoDigit tail) :
    signedDigits (decimal n ++ tail) = (false, n) := by
  have hdigits : ∀ c ∈ decimal n, c.isDigit = true := fun _ hc => isDigit_of_mem_decimal hc
  rw [signedDigits_of_noDigit (decimal_ne_nil n) hdigits htail,
    digitsVal_eq_ofDigitChars (decimal n) hdigits]
  exact congrArg (Prod.mk false) (Nat.ofDigitChars_toDigits (by decide) (by decide))

theorem strtoul_decimal {n : Nat} (hn : n < 2 ^ 64) (htail : NoDigit tail) :
    strtoul (decimal n ++ tail) = UInt64.ofNat n := by
  unfold strtoul
  rw [signedDigits_decimal n htail]
  exact (if_pos hn).trans (if_neg Bool.false_ne_true)

/-! ## Formatted input -/

/-- A word that fits is read up to the space behind it. -/
theorem scanfWord_append {width : Nat} {word : List Char} (hne : word ≠ [])
    (hword : ∀ c ∈ word, isSpace c = false) (hfits : word.length ≤ width) {sep : Char}
    (hsep : isSpace sep = true) (rest : List Char) :
    scanfWord width (word ++ sep :: rest) = some (word, sep :: rest) := by
  have hlead : (word ++ sep :: rest).dropWhile isSpace = word ++ sep :: rest := by
    cases word with
    | nil => exact absurd rfl hne
    | cons c word =>
        have hc : isSpace c = false := hword c List.mem_cons_self
        rw [List.cons_append, List.dropWhile_cons_of_neg (by simp [hc])]
  have htake : ∀ n, word.length ≤ n →
      ((word ++ sep :: rest).take n).takeWhile (fun c => !isSpace c) = word := by
    intro n hn
    rw [List.take_append, List.take_of_length_le hn]
    rw [List.takeWhile_append_of_pos fun c hc => by simp [hword c hc]]
    cases n - word.length with
    | zero => simp
    | succ m => simp [hsep]
  simp only [scanfWord, hlead, htake width hfits]
  rw [if_neg hne, List.drop_left]

/-- A printed number behind a space reads back as itself. -/
theorem scanfUnsigned_decimal {n : Nat} (hn : n < 2 ^ 32) (htail : NoDigit tail) :
    scanfUnsigned (' ' :: (decimal n ++ tail)) = some (UInt32.ofNat n) := by
  have hdigits : ∀ c ∈ decimal n, c.isDigit = true := fun _ hc => isDigit_of_mem_decimal hc
  have hspace : (' ' :: (decimal n ++ tail)).dropWhile isSpace =
      (decimal n ++ tail).dropWhile isSpace := List.dropWhile_cons_of_pos (by decide)
  have hval : strtoul (' ' :: (decimal n ++ tail)) = UInt64.ofNat n := by
    have hsame : strtoul (' ' :: (decimal n ++ tail)) = strtoul (decimal n ++ tail) := by
      unfold strtoul signedDigits
      rw [hspace]
    rw [hsame]
    exact strtoul_decimal (by omega) htail
  have hlow : (UInt64.ofNat n).toUInt32 = UInt32.ofNat n := by
    apply UInt32.toNat_inj.mp
    have hsize : UInt64.size = 2 ^ 64 := rfl
    rw [UInt64.toNat_toUInt32, UInt64.toNat_ofNat_of_lt' (by omega), UInt32.toNat_ofNat']
  unfold scanfUnsigned
  rw [hval, hspace, hlow]
  generalize hd : decimal n = digits at hdigits
  cases digits with
  | nil => exact absurd hd (decimal_ne_nil n)
  | cons d digits =>
      have hdigit : d.isDigit = true := hdigits d List.mem_cons_self
      rw [List.cons_append, List.dropWhile_cons_of_neg (by simp [isSpace_of_isDigit hdigit])]
      split
      · rename_i heq; cases heq; exact absurd hdigit (by decide)
      · rename_i heq; cases heq; exact absurd hdigit (by decide)
      · exact if_pos hdigit

/-! ## Reading line by line -/

theorem fgetsFrom_line (cap : Nat) {line : List Char} (hline : '\n' ∉ line)
    (rest : List Char) :
    ∀ room cur, line.length < room →
      fgetsFrom cap room cur (line ++ '\n' :: rest) =
        (cur.reverse ++ line ++ ['\n']) :: fgetsFrom cap cap [] rest := by
  induction line with
  | nil => intro room cur _; simp [fgetsFrom]
  | cons c line ih =>
      intro room cur hroom
      simp only [List.length_cons] at hroom
      have hc : c ≠ '\n' := fun h => hline (h ▸ List.mem_cons_self)
      have hnot : ¬(c = '\n' ∨ room ≤ 1) := by
        intro h
        rcases h with h | h
        · exact hc h
        · omega
      rw [List.cons_append, fgetsFrom, if_neg hnot,
        ih (fun h => hline (List.mem_cons_of_mem c h)) (room - 1) (c :: cur) (by omega)]
      simp

/-- Lines that fit the buffer are read one by one. -/
theorem fgetsAll_lines {size : Nat} {lines : List (List Char)}
    (hlines : ∀ line ∈ lines, '\n' ∉ line ∧ line.length < size - 1) :
    fgetsAll size (lines.flatMap (· ++ ['\n'])) = lines.map (· ++ ['\n']) := by
  unfold fgetsAll
  induction lines with
  | nil => rfl
  | cons line lines ih =>
      obtain ⟨hnewline, hlength⟩ := hlines line List.mem_cons_self
      have hrest := ih fun l hl => hlines l (List.mem_cons_of_mem line hl)
      rw [List.flatMap_cons, List.append_assoc, List.singleton_append,
        fgetsFrom_line (size - 1) hnewline _ (size - 1) [] hlength, hrest]
      rfl

/-- A text that ends in a newline is read completely before what follows it. -/
theorem fgetsFrom_append (cap : Nat) (rest : List Char) {text : List Char} :
    ∀ room cur, text.getLast? = some '\n' →
      fgetsFrom cap room cur (text ++ rest) =
        fgetsFrom cap room cur text ++ fgetsFrom cap cap [] rest := by
  induction text with
  | nil => intro room cur h; cases h
  | cons c text ih =>
      intro room cur hlast
      rw [List.cons_append, fgetsFrom, fgetsFrom]
      cases text with
      | nil =>
          have hc : c = '\n' := by simpa using hlast
          simp [hc, fgetsFrom]
      | cons d text =>
          have hlast' : (d :: text).getLast? = some '\n' := by
            rw [List.getLast?_cons_cons] at hlast
            exact hlast
          split
          · rw [ih cap [] hlast', List.cons_append]
          · exact ih (room - 1) (c :: cur) hlast'

/-- Every piece that is read is a piece of the text. -/
theorem infix_of_mem_fgetsFrom (cap : Nat) {piece : List Char} (text : List Char) :
    ∀ room cur, piece ∈ fgetsFrom cap room cur text → piece <:+: cur.reverse ++ text := by
  induction text with
  | nil =>
      intro room cur h
      unfold fgetsFrom at h
      split at h
      · cases h
      · simp only [List.mem_singleton] at h
        simp [h]
  | cons c text ih =>
      intro room cur h
      unfold fgetsFrom at h
      split at h
      · rcases List.mem_cons.mp h with h | h
        · refine ⟨[], text, ?_⟩
          simp [h]
        · have htail := ih cap [] h
          simp only [List.reverse_nil, List.nil_append] at htail
          refine htail.trans ⟨cur.reverse ++ [c], [], ?_⟩
          simp
      · have hpiece := ih (room - 1) (c :: cur) h
        simpa using hpiece

/-! ## Tokens -/

/-- The last occurrence is the one that nothing of its kind follows. -/
theorem strrchr_append (ch : Char) (pre : List Char) {post : List Char} (hpost : ch ∉ post) :
    strrchr ch (pre ++ ch :: post) = some (ch :: post) := by
  have hnone : ∀ s : List Char, ch ∉ s → strrchr ch s = none := by
    intro s
    induction s with
    | nil => intro _; rfl
    | cons c s ih =>
        intro hs
        rw [List.mem_cons, not_or] at hs
        unfold strrchr
        rw [ih hs.2]
        exact if_neg (Ne.symm hs.1)
  induction pre with
  | nil =>
      rw [List.nil_append]
      unfold strrchr
      rw [hnone post hpost]
      exact if_pos rfl
  | cons c pre ih =>
      rw [List.cons_append]
      unfold strrchr
      rw [ih]

theorem strtokFrom_token (htoken : delim ∉ token) (rest : List Char) :
    ∀ cur, cur.reverse ++ token ≠ [] →
      strtokFrom delim cur (token ++ delim :: rest) =
        (cur.reverse ++ token) :: strtok delim rest := by
  induction token with
  | nil =>
      intro cur hne
      have hcur : cur ≠ [] := by simpa using hne
      rw [List.nil_append, List.append_nil, strtokFrom, if_pos rfl, if_neg hcur]
      rfl
  | cons c token ih =>
      intro cur _
      rw [List.mem_cons, not_or] at htoken
      rw [List.cons_append, strtokFrom, if_neg (Ne.symm htoken.1), ih htoken.2 (c :: cur) (by simp)]
      simp

/-- A token in front, and the delimiter behind it. -/
theorem strtok_token (hne : token ≠ []) (htoken : delim ∉ token) (rest : List Char) :
    strtok delim (token ++ delim :: rest) = token :: strtok delim rest :=
  strtokFrom_token htoken rest [] (by simpa using hne)

/-- The last token goes to the end of the text. -/
theorem strtok_last (hne : token ≠ []) (htoken : delim ∉ token) : strtok delim token = [token] := by
  have hfrom : ∀ (token : List Char), delim ∉ token → ∀ cur, cur.reverse ++ token ≠ [] →
      strtokFrom delim cur token = [cur.reverse ++ token] := by
    intro token
    induction token with
    | nil =>
        intro _ cur hne
        have hcur : cur ≠ [] := by simpa using hne
        rw [List.append_nil, strtokFrom, if_neg hcur]
    | cons c token ih =>
        intro htoken cur _
        rw [List.mem_cons, not_or] at htoken
        rw [strtokFrom, if_neg (Ne.symm htoken.1), ih htoken.2 (c :: cur) (by simp)]
        simp
  exact hfrom token htoken [] (by simpa using hne)

/-- Tokens that are each followed by the delimiter. -/
theorem strtok_tokens {tokens : List (List Char)} (htokens : ∀ t ∈ tokens, t ≠ [] ∧ delim ∉ t)
    (rest : List Char) :
    strtok delim (tokens.flatMap (· ++ [delim]) ++ rest) = tokens ++ strtok delim rest := by
  induction tokens with
  | nil => rfl
  | cons t tokens ih =>
      obtain ⟨hne, hdelim⟩ := htokens t List.mem_cons_self
      have hrest := ih fun t' ht' => htokens t' (List.mem_cons_of_mem t ht')
      rw [List.flatMap_cons, List.append_assoc, List.append_assoc, List.singleton_append,
        strtok_token hne hdelim, hrest]
      rfl

end MtRdma.Verified.CText
