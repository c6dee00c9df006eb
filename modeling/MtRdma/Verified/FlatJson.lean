import MtRdma.Verified.CText

/-!
# JSON objects of numbers and strings

The text of a JSON object whose fields are integers and strings, as it is
printed with a blank behind each mark, and a reader of such texts.  The reader
takes any white space between the tokens.  Printing escapes the quotation mark,
the backslash and the slash; other bytes stand for themselves.

What is printed is read back as it was (`parse_print`).
-/

namespace MtRdma.Verified.FlatJson

open CText

/-- The value of a field. -/
inductive Scalar where
  | int (n : Int)
  | string (text : List Char)
  deriving Repr, DecidableEq

/-- An object, by its fields in the order in which they are printed. -/
abbrev Fields := List (String × Scalar)

/-! ## Printing -/

def escape (c : Char) : List Char :=
  if c = '\x22' ∨ c = '\\' ∨ c = '/' then ['\\', c] else [c]

/-- What stands behind the opening quotation mark. -/
def quoteTail (text rest : List Char) : List Char := text.flatMap escape ++ '\x22' :: rest

def printScalar (v : Scalar) (rest : List Char) : List Char :=
  match v with
  | .int n => signedDecimal n ++ rest
  | .string text => '\x22' :: quoteTail text rest

def printField (field : String × Scalar) (rest : List Char) : List Char :=
  '\x22' :: quoteTail field.1.toList (':' :: ' ' :: printScalar field.2 rest)

/-- The fields behind the first one, and the end. -/
def printMore : Fields → List Char
  | [] => [' ', '\x7d']
  | field :: fields => ',' :: ' ' :: printField field (printMore fields)

def print : Fields → List Char
  | [] => ['\x7b', ' ', '\x7d']
  | field :: fields => '\x7b' :: ' ' :: printField field (printMore fields)

/-! ## Reading -/

/-- A string up to its closing quotation mark, and what follows. -/
def scanQuoted : List Char → Option (List Char × List Char)
  | [] => none
  | '\x22' :: cs => some ([], cs)
  | '\\' :: c :: cs => (scanQuoted cs).map fun r => (c :: r.1, r.2)
  | c :: cs => (scanQuoted cs).map fun r => (c :: r.1, r.2)

/-- The digits of a number, and what follows. -/
def scanNat (cs : List Char) : Option (Nat × List Char) :=
  if cs.takeWhile Char.isDigit = [] then none
  else some (Nat.ofDigitChars 10 (cs.takeWhile Char.isDigit) 0, cs.dropWhile Char.isDigit)

def scanScalar : List Char → Option (Scalar × List Char)
  | '\x22' :: cs => (scanQuoted cs).map fun r => (.string r.1, r.2)
  | '-' :: cs => (scanNat cs).map fun r => (.int (-r.1), r.2)
  | cs => (scanNat cs).map fun r => (.int r.1, r.2)

def scanField (cs : List Char) : Option ((String × Scalar) × List Char) :=
  match cs.dropWhile isSpace with
  | '\x22' :: cs => (scanQuoted cs).bind fun key =>
      match key.2.dropWhile isSpace with
      | ':' :: cs => (scanScalar (cs.dropWhile isSpace)).map fun v =>
          ((String.ofList key.1, v.1), v.2)
      | _ => none
  | _ => none

/-- The fields from here to the closing brace, at most `fuel` of them. -/
def scanFields : Nat → List Char → Option Fields
  | 0, _ => none
  | fuel + 1, cs => (scanField cs).bind fun field =>
      match field.2.dropWhile isSpace with
      | ',' :: cs => (scanFields fuel cs).map (field.1 :: ·)
      | '\x7d' :: _ => some [field.1]
      | _ => none

/-- The object at the beginning of a text. -/
def parse (text : List Char) : Option Fields :=
  match text.dropWhile isSpace with
  | '\x7b' :: cs =>
      match cs.dropWhile isSpace with
      | '\x7d' :: _ => some []
      | _ => scanFields cs.length cs
  | _ => none

/-! ## What is printed is read back -/

theorem scanQuoted_quoteTail (text rest : List Char) :
    scanQuoted (quoteTail text rest) = some (text, rest) := by
  unfold quoteTail
  induction text with
  | nil => rfl
  | cons c text ih =>
      rw [List.flatMap_cons, escape, List.append_assoc]
      split
      · rw [List.cons_append, List.singleton_append, scanQuoted, ih]
        rfl
      · rename_i hplain
        rw [not_or, not_or] at hplain
        rw [List.singleton_append, scanQuoted, ih]
        · rfl
        · exact hplain.1
        · exact fun _ _ hback _ => hplain.2.1 hback

theorem scanNat_decimal {rest : List Char} (hrest : NoDigit rest) (n : Nat) :
    scanNat (decimal n ++ rest) = some (n, rest) := by
  have hdigits : ∀ c ∈ decimal n, c.isDigit = true := fun _ => isDigit_of_mem_decimal
  have hstop : rest.takeWhile Char.isDigit = [] ∧ rest.dropWhile Char.isDigit = rest := by
    cases rest with
    | nil => exact ⟨rfl, rfl⟩
    | cons c rest =>
        have hc : c.isDigit = false := hrest c rfl
        exact ⟨List.takeWhile_cons_of_neg (by simp [hc]), List.dropWhile_cons_of_neg (by simp [hc])⟩
  unfold scanNat
  rw [List.takeWhile_append_of_pos hdigits, List.dropWhile_append_of_pos hdigits, hstop.1, hstop.2,
    List.append_nil, if_neg (decimal_ne_nil n)]
  exact congrArg (fun m => some (m, rest)) (Nat.ofDigitChars_toDigits (by decide) (by decide))

/-- A text that begins with a digit is read as a number. -/
theorem scanScalar_of_digit {d : Char} (hd : d.isDigit = true) (cs : List Char) :
    scanScalar (d :: cs) = (scanNat (d :: cs)).map fun r => (.int r.1, r.2) := by
  unfold scanScalar
  split
  · rename_i heq
    rw [(List.cons.inj heq).1] at hd
    cases hd
  · rename_i heq
    rw [(List.cons.inj heq).1] at hd
    cases hd
  · rfl

theorem decimal_eq_cons (n : Nat) : ∃ d digits, decimal n = d :: digits ∧ d.isDigit = true := by
  obtain ⟨d, digits, hcons⟩ := List.exists_cons_of_ne_nil (decimal_ne_nil n)
  exact ⟨d, digits, hcons, isDigit_of_mem_decimal (hcons ▸ List.mem_cons_self)⟩

theorem scanScalar_print {rest : List Char} (hrest : NoDigit rest) (v : Scalar) :
    scanScalar (printScalar v rest) = some (v, rest) := by
  cases v with
  | string text =>
      show (scanQuoted (quoteTail text rest)).map _ = _
      rw [scanQuoted_quoteTail]
      rfl
  | int n =>
      cases n with
      | ofNat m =>
          have hnat := scanNat_decimal hrest m
          obtain ⟨d, digits, hcons, hd⟩ := decimal_eq_cons m
          show scanScalar (decimal m ++ rest) = _
          rw [hcons, List.cons_append] at hnat ⊢
          rw [scanScalar_of_digit hd, hnat]
          rfl
      | negSucc m =>
          show (scanNat (decimal (m + 1) ++ rest)).map _ = _
          rw [scanNat_decimal hrest]
          rfl

/-- A printed value has no space in front. -/
theorem dropWhile_printScalar (v : Scalar) (rest : List Char) :
    (printScalar v rest).dropWhile isSpace = printScalar v rest := by
  cases v with
  | string text => exact List.dropWhile_cons_of_neg (by decide)
  | int n =>
      cases n with
      | ofNat m =>
          obtain ⟨d, digits, hcons, hd⟩ := decimal_eq_cons m
          show (decimal m ++ rest).dropWhile isSpace = decimal m ++ rest
          rw [hcons]
          exact List.dropWhile_cons_of_neg (by simp [isSpace_of_isDigit hd])
      | negSucc m => exact List.dropWhile_cons_of_neg (by decide)

theorem scanField_print {rest : List Char} (hrest : NoDigit rest) (field : String × Scalar) :
    scanField (' ' :: printField field rest) = some (field, rest) := by
  have hvalue : scanScalar ((' ' :: printScalar field.2 rest).dropWhile isSpace) =
      some (field.2, rest) := by
    rw [List.dropWhile_cons_of_pos (by decide), dropWhile_printScalar, scanScalar_print hrest]
  show (scanQuoted (quoteTail field.1.toList (':' :: ' ' :: printScalar field.2 rest))).bind _ = _
  rw [scanQuoted_quoteTail]
  show (scanScalar ((' ' :: printScalar field.2 rest).dropWhile isSpace)).map _ = _
  rw [hvalue, Option.map_some, String.ofList_toList]

theorem noDigit_printMore (fields : Fields) : NoDigit (printMore fields) := by
  cases fields with
  | nil | cons => exact fun c hc => Option.some.inj hc ▸ rfl

theorem scanFields_print (fields : Fields) :
    ∀ (field : String × Scalar) (fuel : Nat), fields.length < fuel →
      scanFields fuel (' ' :: printField field (printMore fields)) = some (field :: fields) := by
  induction fields with
  | nil =>
      intro field fuel hfuel
      obtain ⟨fuel, rfl⟩ := Nat.exists_eq_succ_of_ne_zero hfuel.ne'
      rw [scanFields, scanField_print (noDigit_printMore [])]
      rfl
  | cons next fields ih =>
      intro field fuel hfuel
      obtain ⟨fuel, rfl⟩ := Nat.exists_eq_succ_of_ne_zero (Nat.ne_zero_of_lt hfuel)
      rw [List.length_cons] at hfuel
      rw [scanFields, scanField_print (noDigit_printMore (next :: fields)), Option.bind_some]
      show (scanFields fuel (' ' :: printField next (printMore fields))).map _ = _
      rw [ih next fuel (by omega)]
      rfl

theorem length_printField (field : String × Scalar) (rest : List Char) :
    rest.length < (printField field rest).length := by
  unfold printField quoteTail printScalar
  cases field.2 <;> simp [quoteTail] <;> omega

theorem length_printMore (fields : Fields) : fields.length ≤ (printMore fields).length := by
  induction fields with
  | nil => exact Nat.zero_le _
  | cons field fields ih =>
      have hfield := length_printField field (printMore fields)
      rw [printMore, List.length_cons, List.length_cons, List.length_cons]
      omega

/-- **Round trip.** -/
theorem parse_print (fields : Fields) : parse (print fields) = some fields := by
  cases fields with
  | nil => rfl
  | cons field fields =>
      have hlength : fields.length < (' ' :: printField field (printMore fields)).length := by
        have hmore := length_printMore fields
        have hfield := length_printField field (printMore fields)
        rw [List.length_cons]
        omega
      exact scanFields_print fields field _ hlength

end MtRdma.Verified.FlatJson
