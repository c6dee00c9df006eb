import Mathlib.Data.Finset.Insert
import Mathlib.Data.Finset.Erase

/-!
# Operations on handles

A program opens, uses and closes handles.  What it does is a list of
operations, oldest first; which handles are open is a function of the
operations so far.  `Along` says that every operation of a list meets a
condition on the handles open when it is carried out: that it finds its handle
open (`Finds`), or, as an assumption on the system, that a handle handed out is
not in use (`Fresh`).  A handle may be handed out again once it is closed.
-/

namespace MtRdma.Verified.Handles

/-- What is done, and with which handle. -/
inductive Op (η : Type) where
  | opened (h : η)
  | used (h : η)
  | closed (h : η)
  deriving Repr, DecidableEq

variable {η : Type} [DecidableEq η]

/-- The handles open after an operation. -/
def Op.effect (t : Finset η) : Op η → Finset η
  | .opened h => insert h t
  | .used _ => t
  | .closed h => t.erase h

/-- The handles open after a list of operations. -/
def after (t : Finset η) (ops : List (Op η)) : Finset η := ops.foldl Op.effect t

/-- Every operation meets `P` at its turn. -/
def Along (P : Finset η → Op η → Prop) : Finset η → List (Op η) → Prop
  | _, [] => True
  | t, op :: ops => P t op ∧ Along P (op.effect t) ops

/-- A handle that is used or closed is open. -/
def Finds (t : Finset η) : Op η → Prop
  | .opened _ => True
  | .used h => h ∈ t
  | .closed h => h ∈ t

/-- A handle that is handed out is not open. -/
def Fresh (t : Finset η) : Op η → Prop
  | .opened h => h ∉ t
  | .used _ => True
  | .closed _ => True

@[simp] theorem after_nil (t : Finset η) : after t [] = t := rfl

@[simp] theorem after_opened (t : Finset η) (h : η) (ops : List (Op η)) :
    after t (.opened h :: ops) = after (insert h t) ops := rfl

@[simp] theorem after_used (t : Finset η) (h : η) (ops : List (Op η)) :
    after t (.used h :: ops) = after t ops := rfl

@[simp] theorem after_closed (t : Finset η) (h : η) (ops : List (Op η)) :
    after t (.closed h :: ops) = after (t.erase h) ops := rfl

@[simp] theorem after_append (t : Finset η) (ops ops' : List (Op η)) :
    after t (ops ++ ops') = after (after t ops) ops' :=
  List.foldl_append

@[simp] theorem along_nil (P : Finset η → Op η → Prop) (t : Finset η) : Along P t [] := trivial

@[simp] theorem along_append (P : Finset η → Op η → Prop) (t : Finset η) (ops ops' : List (Op η)) :
    Along P t (ops ++ ops') ↔ Along P t ops ∧ Along P (after t ops) ops' := by
  induction ops generalizing t with
  | nil => exact Iff.of_eq (true_and _).symm
  | cons op ops ih =>
      rw [List.cons_append]
      show P t op ∧ Along P (op.effect t) (ops ++ ops') ↔ _
      rw [ih, ← and_assoc]
      rfl

@[simp] theorem finds_opened (t : Finset η) (h : η) (ops : List (Op η)) :
    Along Finds t (.opened h :: ops) ↔ Along Finds (insert h t) ops :=
  Iff.of_eq (true_and _)

@[simp] theorem finds_used (t : Finset η) (h : η) (ops : List (Op η)) :
    Along Finds t (.used h :: ops) ↔ h ∈ t ∧ Along Finds t ops :=
  Iff.rfl

@[simp] theorem finds_closed (t : Finset η) (h : η) (ops : List (Op η)) :
    Along Finds t (.closed h :: ops) ↔ h ∈ t ∧ Along Finds (t.erase h) ops :=
  Iff.rfl

@[simp] theorem fresh_opened (t : Finset η) (h : η) (ops : List (Op η)) :
    Along Fresh t (.opened h :: ops) ↔ h ∉ t ∧ Along Fresh (insert h t) ops :=
  Iff.rfl

@[simp] theorem fresh_closed (t : Finset η) (h : η) (ops : List (Op η)) :
    Along Fresh t (.closed h :: ops) ↔ Along Fresh (t.erase h) ops :=
  Iff.of_eq (true_and _)

/-- Operations that only use handles leave the same handles open. -/
theorem after_of_used {t : Finset η} {ops : List (Op η)} (hops : ∀ op ∈ ops, ∃ h, op = .used h) :
    after t ops = t := by
  induction ops with
  | nil => rfl
  | cons op ops ih =>
      obtain ⟨h, rfl⟩ := hops op List.mem_cons_self
      rw [after_used]
      exact ih fun op hop => hops op (List.mem_cons_of_mem _ hop)

/-- Uses of open handles find them open. -/
theorem finds_of_used {t : Finset η} {ops : List (Op η)}
    (hops : ∀ op ∈ ops, ∃ h ∈ t, op = .used h) : Along Finds t ops := by
  induction ops with
  | nil => trivial
  | cons op ops ih =>
      obtain ⟨h, hh, rfl⟩ := hops op List.mem_cons_self
      rw [finds_used]
      exact ⟨hh, ih fun op hop => hops op (List.mem_cons_of_mem _ hop)⟩

end MtRdma.Verified.Handles
