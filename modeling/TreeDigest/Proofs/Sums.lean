import Mathlib.Algebra.BigOperators.Group.List.Basic
import Mathlib.Algebra.GroupWithZero.Nat
import Mathlib.Algebra.Order.BigOperators.Group.List
import Mathlib.Algebra.Order.Group.Nat
namespace TreeDigest

variable {weight : α → Nat} {xs ys : List α} {x : α}

theorem sum_indicator [DecidableEq α] (xs : List α) (x : α) :
    (xs.map fun y => if y = x then 1 else 0).sum = xs.count x := by
  rw [List.sum_map_eq_nsmul_single x _ fun y other _ => if_neg other, if_pos rfl]
  exact Nat.mul_one _

-- Lists that weigh the same, whatever each element weighs, hold the same elements.
theorem perm_of_sums (same : ∀ weight : α → Nat, (xs.map weight).sum = (ys.map weight).sum) :
    xs.Perm ys := by
  classical
  rw [List.perm_iff_count]
  intro x
  rw [← sum_indicator, ← sum_indicator]
  exact same _

theorem sum_map_set {i : Nat} {y : α} (found : xs[i]? = some x) :
    ((xs.set i y).map weight).sum + weight x = (xs.map weight).sum + weight y := by
  induction xs generalizing i with
  | nil => simp at found
  | cons first rest ih =>
    cases i with
    | zero =>
      simp only [List.getElem?_cons_zero, Option.some.injEq] at found
      subst found
      simp only [List.set_cons_zero, List.map_cons, List.sum_cons]
      omega
    | succ i =>
      have next := ih (by simpa using found)
      simp only [List.set_cons_succ, List.map_cons, List.sum_cons]
      omega

theorem sum_filterMap (part : β → Option α) (ys : List β) :
    ((ys.filterMap part).map weight).sum = (ys.map fun y => ((part y).map weight).getD 0).sum := by
  induction ys with
  | nil => rfl
  | cons y ys ih =>
    rw [List.filterMap_cons, List.map_cons, List.sum_cons, ← ih]
    cases part y with
    | none => exact (Nat.zero_add _).symm
    | some x => rw [List.map_cons, List.sum_cons]; rfl

end TreeDigest
