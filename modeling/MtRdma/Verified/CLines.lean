import Mathlib.Data.List.DropRight
import MtRdma.Verified.CText

/-!
# Lines, keys and numerals

What a reader of `key = value` texts needs beyond the routines of `CText`:
trimming, splitting at a separator, comparison without regard to case, lines
that are longer than the buffer, and decimal numerals with the number they
denote.
-/

namespace MtRdma.Verified.CLines

open CText

variable {mark : Char} {line : List Char}

/-! ## Trimming -/

section Trim

variable {α : Type} (p : α → Bool)

/-- Drop from both ends. -/
def trim (l : List α) : List α := (l.dropWhile p).rdropWhile p

theorem rdropWhile_cons (x : α) (l : List α) :
    (x :: l).rdropWhile p = if l.rdropWhile p = [] ∧ p x then [] else x :: l.rdropWhile p := by
  unfold List.rdropWhile
  rw [List.reverse_cons, List.dropWhile_append]
  by_cases hall : l.reverse.dropWhile p = []
  · rw [if_pos (by simp [hall]), hall]
    by_cases hx : p x
    · simp [hx]
    · simp [hx]
  · rw [if_neg (by simpa using hall), if_neg (by simp [hall])]
    simp

/-- A separator that is not dropped stops both ends. -/
theorem trim_append_cons {x : α} (hx : p x = false) (pre post : List α) :
    trim p (pre ++ x :: post) = pre.dropWhile p ++ x :: post.rdropWhile p := by
  have hfront : (pre ++ x :: post).dropWhile p = pre.dropWhile p ++ x :: post := by
    rw [List.dropWhile_append]
    split
    · rename_i hempty
      rw [List.isEmpty_iff] at hempty
      rw [hempty, List.dropWhile_cons_of_neg (by simp [hx]), List.nil_append]
    · rfl
  have hback : ∀ front : List α,
      (front ++ x :: post).rdropWhile p = front ++ x :: post.rdropWhile p := by
    intro front
    induction front with
    | nil => rw [List.nil_append, rdropWhile_cons, if_neg (by simp [hx]), List.nil_append]
    | cons y front ih =>
        rw [List.cons_append, rdropWhile_cons, ih, if_neg (by simp), List.cons_append]
  unfold trim
  rw [hfront, hback]

theorem dropWhile_rdropWhile_comm (l : List α) :
    (l.rdropWhile p).dropWhile p = (l.dropWhile p).rdropWhile p := by
  induction l with
  | nil => simp
  | cons x l ih =>
      rw [rdropWhile_cons]
      by_cases hx : p x
      · rw [List.dropWhile_cons_of_pos hx, ← ih]
        split
        · rename_i h
          rw [h.1]
        · rw [List.dropWhile_cons_of_pos hx]
      · rw [if_neg (fun h => hx h.2), List.dropWhile_cons_of_neg hx,
          List.dropWhile_cons_of_neg hx, rdropWhile_cons, if_neg (fun h => hx h.2)]

theorem trim_dropWhile (l : List α) : trim p (l.dropWhile p) = trim p l := by
  unfold trim
  rw [List.dropWhile_idempotent]

theorem trim_rdropWhile (l : List α) : trim p (l.rdropWhile p) = trim p l := by
  unfold trim
  rw [← dropWhile_rdropWhile_comm, List.rdropWhile_idempotent, dropWhile_rdropWhile_comm]

theorem trim_append_of_all {post : List α} (hpost : ∀ x ∈ post, p x = true) (pre : List α) :
    trim p (pre ++ post) = trim p pre := by
  have hdrop : (pre ++ post).rdropWhile p = pre.rdropWhile p := by
    unfold List.rdropWhile
    rw [List.reverse_append,
      List.dropWhile_append_of_pos fun x hx => hpost x (List.mem_reverse.mp hx)]
  unfold trim
  rw [← dropWhile_rdropWhile_comm, ← dropWhile_rdropWhile_comm, hdrop]

/-- The first thing kept is the first thing that is not dropped. -/
theorem head?_trim (l : List α) : (trim p l).head? = (l.dropWhile p).head? := by
  unfold trim
  cases hdrop : l.dropWhile p with
  | nil => simp
  | cons x rest =>
      have hx : p x = false := by
        have hhead := List.head?_dropWhile_not p l
        rw [hdrop] at hhead
        simpa using hhead
      rw [rdropWhile_cons, if_neg (by simp [hx])]
      rfl

end Trim

/-! ## Splitting -/

/-- What stands before the first `mark`. -/
def before (mark : Char) (s : List Char) : List Char := s.takeWhile (· ≠ mark)

/-- What stands after it. -/
def after (mark : Char) (s : List Char) : List Char := (s.dropWhile (· ≠ mark)).drop 1

theorem eq_before_append {s : List Char} (h : mark ∈ s) :
    s = before mark s ++ mark :: after mark s := by
  have hsplit := List.takeWhile_append_dropWhile (p := fun c => decide (c ≠ mark)) (l := s)
  unfold before after
  cases hrest : s.dropWhile (· ≠ mark) with
  | nil =>
      rw [List.dropWhile_eq_nil_iff] at hrest
      exact absurd (hrest mark h) (by simp)
  | cons c rest =>
      have hc : c = mark := by
        have hhead := List.head?_dropWhile_not (fun c => decide (c ≠ mark)) s
        rw [hrest] at hhead
        simpa using hhead
      rw [hrest, hc] at hsplit
      simpa using hsplit.symm

theorem notMem_before (mark : Char) (s : List Char) : mark ∉ before mark s := by
  intro h
  have hne := List.mem_takeWhile_imp h
  simp at hne

theorem before_append_cons {pre : List Char} (hpre : mark ∉ pre) (post : List Char) :
    before mark (pre ++ mark :: post) = pre :=
  takeWhile_ne_append hpre post

theorem after_append_cons {pre : List Char} (hpre : mark ∉ pre) (post : List Char) :
    after mark (pre ++ mark :: post) = post := by
  have hmem : mark ∈ pre ++ mark :: post := List.mem_append_right _ List.mem_cons_self
  have hsplit := eq_before_append hmem
  rw [before_append_cons hpre, List.append_cancel_left_eq, List.cons.injEq] at hsplit
  exact hsplit.2.symm

/-! ## Case -/

/-- `strcasecmp` compares the texts that `tolower` leaves. -/
def foldCase (s : List Char) : List Char := s.map Char.toLower

/-- No letter is lowered to a mark that comes before the letters. -/
theorem toLower_eq_iff {c : Char} (hmark : mark.toNat < 65) :
    c.toLower = mark ↔ c = mark := by
  unfold Char.toLower
  split
  · rename_i hupper
    have hlow : 65 ≤ c.toNat := UInt32.le_iff_toNat_le.mp hupper.1
    have hhigh : c.toNat ≤ 90 := UInt32.le_iff_toNat_le.mp hupper.2
    have hlowered : (c.val + ('a'.val - 'A'.val)).toNat = c.toNat + 32 := by
      rw [UInt32.toNat_add]
      exact Nat.mod_eq_of_lt (by change c.toNat + 32 < 2 ^ 32; omega)
    constructor
    · intro h
      have hnat : (c.val + ('a'.val - 'A'.val)).toNat = mark.toNat :=
        congrArg (fun d : Char => d.val.toNat) h
      omega
    · intro h
      rw [h] at hlow
      omega
  · rfl

theorem head?_foldCase_eq_some (hmark : mark.toNat < 65) (s : List Char) :
    (foldCase s).head? = some mark ↔ s.head? = some mark := by
  cases s with
  | nil => rfl
  | cons c s =>
      rw [foldCase, List.map_cons, List.head?_cons, List.head?_cons, Option.some_inj,
        Option.some_inj]
      exact toLower_eq_iff hmark

/-! ## Lines -/

/-- The lines of a text behind `cur`, which holds the beginning of the first one
in reverse. -/
def linesFrom : List Char → List Char → List (List Char)
  | cur, [] => if cur = [] then [] else [cur.reverse]
  | cur, c :: cs =>
      if c = '\n' then cur.reverse :: linesFrom [] cs else linesFrom (c :: cur) cs

/-- The lines of a text, without their newlines.  What stands behind the last
newline is a line too, unless it is empty. -/
def linesOf (text : List Char) : List (List Char) := linesFrom [] text

theorem linesFrom_append (hline : '\n' ∉ line) (rest : List Char) :
    ∀ cur, linesFrom cur (line ++ rest) = linesFrom (line.reverse ++ cur) rest := by
  induction line with
  | nil => intro cur; rfl
  | cons c line ih =>
      intro cur
      rw [List.mem_cons, not_or] at hline
      rw [List.cons_append, linesFrom, if_neg (Ne.symm hline.1), ih hline.2]
      simp

theorem linesOf_cons (hline : '\n' ∉ line) (rest : List Char) :
    linesOf (line ++ '\n' :: rest) = line :: linesOf rest := by
  unfold linesOf
  rw [linesFrom_append hline, linesFrom, if_pos rfl, List.append_nil, List.reverse_reverse]

theorem linesOf_single (hline : '\n' ∉ line) (hne : line ≠ []) :
    linesOf line = [line] := by
  have hlines := linesFrom_append hline [] []
  rw [List.append_nil, List.append_nil, linesFrom, if_neg (by simpa using hne),
    List.reverse_reverse] at hlines
  exact hlines

/-- Induction over a text by its lines, the last of which may be unterminated. -/
theorem text_induction {P : List Char → Prop} (nil : P [])
    (last : ∀ line, '\n' ∉ line → line ≠ [] → P line)
    (cons : ∀ line rest, '\n' ∉ line → P rest → P (line ++ '\n' :: rest)) :
    ∀ text, P text := by
  -- the text is taken apart from the front, with the current line in `cur`
  have hbuild : ∀ text cur, '\n' ∉ cur → P (cur ++ text) := by
    intro text
    induction text with
    | nil =>
        intro cur hcur
        rw [List.append_nil]
        by_cases hne : cur = []
        · exact hne ▸ nil
        · exact last cur hcur hne
    | cons c text ih =>
        intro cur hcur
        by_cases hc : c = '\n'
        · rw [hc]
          exact cons cur text hcur (ih [] List.not_mem_nil)
        · have hnext := ih (cur ++ [c])
            (by rw [List.mem_append, List.mem_singleton, not_or]; exact ⟨hcur, Ne.symm hc⟩)
          rwa [List.append_assoc, List.singleton_append] at hnext
  exact fun text => hbuild text [] List.not_mem_nil

/-- A buffer that is full before the line ends is a piece of its own. -/
theorem fgetsFrom_full (cap : Nat) (rest : List Char) {piece : List Char}
    (hpiece : '\n' ∉ piece) (hne : piece ≠ []) :
    ∀ cur, fgetsFrom cap piece.length cur (piece ++ rest) =
      (cur.reverse ++ piece) :: fgetsFrom cap cap [] rest := by
  induction piece with
  | nil => exact absurd rfl hne
  | cons c piece ih =>
      intro cur
      rw [List.mem_cons, not_or] at hpiece
      rw [List.cons_append, fgetsFrom]
      cases piece with
      | nil => simp
      | cons d piece =>
          have hnot : ¬(c = '\n' ∨ (c :: d :: piece).length ≤ 1) := by
            simp [Ne.symm hpiece.1]
          rw [if_neg hnot, List.length_cons, Nat.add_sub_cancel,
            ih hpiece.2 (List.cons_ne_nil d piece) (c :: cur)]
          simp

/-- An unterminated line that fits is one piece. -/
theorem fgetsFrom_last (cap : Nat) (hline : '\n' ∉ line) :
    ∀ room cur, line.length < room → cur.reverse ++ line ≠ [] →
      fgetsFrom cap room cur line = [cur.reverse ++ line] := by
  induction line with
  | nil =>
      intro room cur _ hne
      rw [fgetsFrom, if_neg (by simpa using hne), List.append_nil]
  | cons c line ih =>
      intro room cur hroom _
      rw [List.mem_cons, not_or] at hline
      rw [List.length_cons] at hroom
      rw [fgetsFrom, if_neg (by rintro (hc | hc); exacts [hline.1 hc.symm, by omega]),
        ih hline.2 (room - 1) (c :: cur) (by omega) (by simp)]
      simp

/-- How a line, terminated or not, is read: its first `cap` bytes, perhaps with
the newline, and then pieces of what is left. -/
theorem fgetsFrom_pieces {cap : Nat} (hcap : 0 < cap) {eol : List Char} (hline : '\n' ∉ line)
    (heol : eol = [] ∨ eol = ['\n']) (hne : line ++ eol ≠ []) :
    ∃ eol' later, fgetsFrom cap cap [] (line ++ eol) = (line.take cap ++ eol') :: later ∧
      (eol' = [] ∨ eol' = ['\n']) ∧ ∀ piece ∈ later, piece <:+: line.drop cap ++ eol := by
  by_cases hlength : line.length < cap
  · refine ⟨eol, [], ?_, heol, fun piece hpiece => nomatch hpiece⟩
    rw [List.take_of_length_le hlength.le]
    rcases heol with rfl | rfl
    · rw [List.append_nil] at hne ⊢
      exact fgetsFrom_last cap hline cap [] hlength hne
    · exact fgetsFrom_line cap hline [] cap [] hlength
  · have htake : (line.take cap).length = cap := List.length_take_of_le (by omega)
    have hfull := fgetsFrom_full cap (line.drop cap ++ eol)
      (fun hmem => hline (List.mem_of_mem_take hmem))
      (fun hnil => by rw [hnil] at htake; exact absurd htake hcap.ne) []
    rw [htake, ← List.append_assoc, List.take_append_drop] at hfull
    refine ⟨[], fgetsFrom cap cap [] (line.drop cap ++ eol), ?_, .inl rfl, ?_⟩
    · rw [hfull, List.append_nil]
      rfl
    · exact fun piece hpiece => infix_of_mem_fgetsFrom cap _ cap [] hpiece

/-! ## Numerals -/

/-- A decimal numeral and the number it denotes: digits, with a sign in front
or without. -/
inductive Numeral : List Char → Int → Prop
  | unsigned {digits : List Char} : digits ≠ [] → (∀ c ∈ digits, c.isDigit = true) →
      Numeral digits (Nat.ofDigitChars 10 digits 0)
  | plus {digits : List Char} : digits ≠ [] → (∀ c ∈ digits, c.isDigit = true) →
      Numeral ('+' :: digits) (Nat.ofDigitChars 10 digits 0)
  | minus {digits : List Char} : digits ≠ [] → (∀ c ∈ digits, c.isDigit = true) →
      Numeral ('-' :: digits) (-(Nat.ofDigitChars 10 digits 0 : Int))

/-- Beyond the sign there are only digits. -/
theorem isDigit_of_numeral {text : List Char} {n : Int} (h : Numeral text n) :
    ∀ c ∈ text.drop 1, c.isDigit = true := by
  cases h with
  | unsigned _ hdigits => exact fun c hc => hdigits c (List.mem_of_mem_drop hc)
  | plus _ hdigits => exact hdigits
  | minus _ hdigits => exact hdigits

/-- A numeral is read as the number it denotes, as far as `long` goes. -/
theorem strtol_numeral {text : List Char} {n : Int} (h : Numeral text n) :
    strtol text = max (min n (2 ^ 63 - 1)) (-2 ^ 63) := by
  have hdrop : ∀ (c : Char) (cs : List Char), isSpace c = false →
      (c :: cs).dropWhile isSpace = c :: cs := by
    intro c cs hc
    exact List.dropWhile_cons_of_neg (by simp [hc])
  unfold strtol
  cases h with
  | unsigned hne hdigits =>
      have hend : NoDigit [] := fun _ h => nomatch h
      have hread := signedDigits_of_noDigit hne hdigits hend
      rw [List.append_nil, digitsVal_eq_ofDigitChars text hdigits] at hread
      rw [hread]
      simp only [Bool.false_eq_true, if_false]
      omega
  | @plus digits hne hdigits =>
      have hread : signedDigits ('+' :: digits) = (false, Nat.ofDigitChars 10 digits 0) := by
        rw [← digitsVal_eq_ofDigitChars digits hdigits]
        unfold signedDigits
        rw [hdrop '+' digits (by decide)]
        rfl
      rw [hread]
      simp only [Bool.false_eq_true, if_false]
      omega
  | @minus digits hne hdigits =>
      have hread : signedDigits ('-' :: digits) = (true, Nat.ofDigitChars 10 digits 0) := by
        rw [← digitsVal_eq_ofDigitChars digits hdigits]
        unfold signedDigits
        rw [hdrop '-' digits (by decide)]
        rfl
      rw [hread]
      simp only [if_true]
      omega

/-- The text behind its sign. -/
def afterSign : List Char → List Char
  | '-' :: cs => cs
  | '+' :: cs => cs
  | cs => cs

theorem numeral_of_digits {text : List Char} (hne : afterSign text ≠ [])
    (hdigits : ∀ c ∈ afterSign text, c.isDigit = true) : ∃ n, Numeral text n := by
  fun_cases afterSign text with
  | case1 cs => exact ⟨_, .minus hne hdigits⟩
  | case2 cs => exact ⟨_, .plus hne hdigits⟩
  | case3 _ hminus hplus =>
      rw [afterSign.eq_3 text hminus hplus] at hne hdigits
      exact ⟨_, .unsigned hne hdigits⟩

theorem strtol_of_noDigit {text : List Char} (htext : text.dropWhile isSpace = text)
    (h : NoDigit (afterSign text)) : strtol text = 0 := by
  have hval : digitsVal 0 (afterSign text) = 0 := digitsVal_append_noDigit [] nofun h 0
  have hread : (signedDigits text).2 = 0 := by
    rw [← hval, signedDigits, htext]
    fun_cases afterSign text with
    | case1 cs => rfl
    | case2 cs => rfl
    | case3 _ hminus hplus => split <;> simp_all
  simp [strtol, hread]

end MtRdma.Verified.CLines
