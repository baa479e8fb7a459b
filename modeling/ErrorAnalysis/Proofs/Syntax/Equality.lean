import ErrorAnalysis.Proofs.Number.Equality
import ErrorAnalysis.Proofs.Syntax.Trees

/-!
# Equal Trees

Trees are compared node by node, and their numbers by value. A tree that can be written has no number
with a sign of its own, and then equal trees are the same.

## Main results

* `Expr.eq_of_beq_legible`: **two trees that can be written and are equal are the same.**
-/

namespace ErrorAnalysis

/-! ### Constants -/

theorem Literal.eq_of_beq_legible {k l : Literal} (hk : Expr.isLegible (.literal k) = true)
    (hl : Expr.isLegible (.literal l) = true) (h : k.beq l = true) : k = l := by
  cases k with
  | num x =>
      cases l with
      | num y =>
          simp only [Expr.isLegible, Bool.and_eq_true, Bool.not_eq_true'] at hk hl
          exact congrArg Literal.num (Number.eq_of_beq_unsigned hk.1 hl.1 h)
      | _ => cases h
  | str s =>
      cases l with
      | str t => exact congrArg Literal.str (eq_of_beq h)
      | _ => cases h
  | bool a =>
      cases l with
      | bool b => exact congrArg Literal.bool (eq_of_beq h)
      | _ => cases h
  | none =>
      cases l with
      | none => rfl
      | _ => cases h

namespace Expr

/-! ### Several trees -/

theorem eq_of_listEq {xs ys : List Expr}
    (ih : ∀ x ∈ xs, ∀ y ∈ ys, Expr.beq x y = true → x = y) (h : listEq xs ys = true) :
    xs = ys := by
  induction xs generalizing ys with
  | nil =>
      cases ys with
      | nil => rfl
      | cons y ys => simp [listEq] at h
  | cons x xs ihs =>
      cases ys with
      | nil => simp [listEq] at h
      | cons y ys =>
          rw [listEq, Bool.and_eq_true] at h
          obtain rfl := ih x List.mem_cons_self y List.mem_cons_self h.1
          rw [ihs (fun z hz w hw => ih z (List.mem_cons_of_mem _ hz) w (List.mem_cons_of_mem _ hw))
            h.2]

theorem eq_of_argEq {a b : Arg} (ih : Expr.beq a.value b.value = true → a.value = b.value)
    (h : argEq a b = true) : a = b := by
  cases a with
  | positional x =>
      cases b with
      | positional y =>
          rw [argEq] at h
          exact congrArg Arg.positional (ih h)
      | named n y => simp [argEq] at h
  | named m x =>
      cases b with
      | positional y => simp [argEq] at h
      | named n y =>
          rw [argEq, Bool.and_eq_true] at h
          obtain rfl := eq_of_beq h.1
          exact congrArg (Arg.named m) (ih h.2)

theorem eq_of_argsEq {as bs : List Arg}
    (ih : ∀ a ∈ as, ∀ b ∈ bs, Expr.beq a.value b.value = true → a.value = b.value)
    (h : argsEq as bs = true) : as = bs := by
  induction as generalizing bs with
  | nil =>
      cases bs with
      | nil => rfl
      | cons b bs => simp [argsEq] at h
  | cons a as ihs =>
      cases bs with
      | nil => simp [argsEq] at h
      | cons b bs =>
          rw [argsEq, Bool.and_eq_true] at h
          obtain rfl := eq_of_argEq (ih a List.mem_cons_self b List.mem_cons_self) h.1
          rw [ihs (fun c hc d hd => ih c (List.mem_cons_of_mem _ hc) d (List.mem_cons_of_mem _ hd))
            h.2]

/-! ### Trees -/

/-- Only the tree that does nothing is equal to it. -/
theorem eq_noOp_of_beq {x : Expr} (h : (x == noOp) = true ∨ (noOp == x) = true) : x = noOp := by
  replace h : Expr.beq x noOp = true ∨ Expr.beq noOp x = true := h
  cases x with
  | noOp => rfl
  | _ => simp [Expr.beq] at h

/-- **Two trees that can be written and are equal are the same.** -/
theorem eq_of_beq_legible {x y : Expr} (hx : x.every isLegible = true)
    (hy : y.every isLegible = true) (h : (x == y) = true) : x = y := by
  replace h : Expr.beq x y = true := h
  induction x using Expr.induction generalizing y with
  | noOp => exact absurd hx (by decide)
  | literal k =>
      cases y with
      | literal l =>
          rw [Expr.beq] at h
          exact congrArg Expr.literal (Literal.eq_of_beq_legible hx hy h)
      | _ => simp [Expr.beq] at h
  | list xs ih =>
      cases y with
      | list ys =>
          rw [Expr.beq] at h
          refine congrArg Expr.list (eq_of_listEq (fun x hxs y hys hxy => ?_) h)
          exact ih x hxs ((every_list.mp hx).2 x hxs) ((every_list.mp hy).2 y hys) hxy
      | _ => simp [Expr.beq] at h
  | block kind name =>
      cases y with
      | block kind' name' =>
          rw [Expr.beq, Bool.and_eq_true] at h
          rw [eq_of_beq h.1, eq_of_beq h.2]
      | _ => simp [Expr.beq] at h
  | unary op x ih =>
      cases y with
      | unary op' y =>
          rw [Expr.beq, Bool.and_eq_true] at h
          rw [eq_of_beq h.1, ih (every_unary.mp hx).2 (every_unary.mp hy).2 h.2]
      | _ => simp [Expr.beq] at h
  | binary op x z ihx ihz =>
      cases y with
      | binary op' y w =>
          rw [Expr.beq, Bool.and_eq_true, Bool.and_eq_true] at h
          obtain ⟨-, hx, hz⟩ := every_binary.mp hx
          obtain ⟨-, hy, hw⟩ := every_binary.mp hy
          rw [eq_of_beq h.1.1, ihx hx hy h.1.2, ihz hz hw h.2]
      | _ => simp [Expr.beq] at h
  | ident name =>
      cases y with
      | ident name' =>
          rw [Expr.beq] at h
          rw [eq_of_beq h]
      | _ => simp [Expr.beq] at h
  | call function args edit? ih =>
      cases y with
      | call function' args' edit?' =>
          rw [Expr.beq, Bool.and_eq_true, Bool.and_eq_true] at h
          have hargs : args = args' := by
            refine eq_of_argsEq (fun a ha b hb hab => ?_) h.1.2
            exact ih a ha ((every_call.mp hx).2 a ha) ((every_call.mp hy).2 b hb) hab
          rw [eq_of_beq h.1.1, hargs, eq_of_beq h.2]
      | _ => simp [Expr.beq] at h

end Expr

end ErrorAnalysis
