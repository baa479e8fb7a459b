import ErrorAnalysis.Eval.Error

/-!
# Traced computations

Evaluation is a pure function, except that the patterns it asks for are kept for later. A traced
computation therefore comes with the texts of the patterns it asked for, in order, also if it
fails.

## Main definitions

* `Traced`: a value with the texts that were asked for on the way to it.
* `Eval`: a computation that may fail, traced or of another kind.
-/

namespace ErrorAnalysis

/-- A value with the texts of the patterns that were asked for on the way to it. -/
structure Traced (α : Type) where
  value : α
  asked : List String := []

namespace Traced

variable {α β : Type}

instance : Monad Traced where
  pure a := ⟨a, []⟩
  bind x f := ⟨(f x.value).value, x.asked ++ (f x.value).asked⟩

@[simp] theorem value_pure (a : α) : (pure a : Traced α).value = a := rfl

@[simp] theorem asked_pure (a : α) : (pure a : Traced α).asked = [] := rfl

@[simp] theorem value_bind (x : Traced α) (f : α → Traced β) :
    (x >>= f).value = (f x.value).value := rfl

@[simp] theorem asked_bind (x : Traced α) (f : α → Traced β) :
    (x >>= f).asked = x.asked ++ (f x.value).asked := rfl

@[ext] theorem ext {x y : Traced α} (hv : x.value = y.value) (ha : x.asked = y.asked) : x = y := by
  cases x; cases y; simp_all

instance : LawfulMonad Traced :=
  LawfulMonad.mk' Traced
    (fun _ => ext rfl (by simp [Functor.map]))
    (fun _ _ => ext rfl (by simp))
    (fun _ _ _ => ext rfl (by simp))

/-- Makes a note that the pattern of a text was asked for. -/
def note (source : String) : Traced Unit :=
  ⟨(), [source]⟩

end Traced

/-- A computation of some kind that may fail. -/
abbrev Eval (m : Type → Type) (α : Type) := ExceptT EvalError m α

namespace Eval

variable {α : Type}

/-- A computation that asks for no patterns. -/
def ofExcept {m : Type → Type} [Monad m] (r : Except EvalError α) : Eval m α :=
  ExceptT.mk (pure r)

/-- The result of a traced computation. -/
def result (x : Eval Traced α) : Except EvalError α :=
  (x.run).value

/-- The texts of the patterns that a traced computation asked for. -/
def asked (x : Eval Traced α) : List String :=
  (x.run).asked

end Eval

end ErrorAnalysis
