import TreeDigest.Path.Basic
namespace TreeDigest.Path
open Std

section Lists
variable {cmp : α → α → Ordering} {a b : α} {r s : List α}

theorem compareLists_eq : compareLists cmp = List.compareLex cmp := by
  funext xs ys
  induction xs generalizing ys with
  | nil => cases ys <;> rfl
  | cons x xs ih =>
    cases ys with
    | nil => rfl
    | cons y ys => rw [compareLists, List.compareLex_cons_cons, ih]

instance [TransCmp cmp] : TransCmp (compareLists cmp) := by
  rw [compareLists_eq]
  infer_instance

instance [LawfulEqCmp cmp] : LawfulEqCmp (compareLists cmp) := by
  rw [compareLists_eq]
  infer_instance

theorem compareLists_append [ReflCmp cmp] (front : List α) :
    compareLists cmp (front ++ r) (front ++ s) = compareLists cmp r s := by
  induction front with
  | nil => rfl
  | cons x front ih => simp [compareLists, @ReflCmp.compare_self _ cmp, ih]

theorem compareLists_head (before : cmp a b = .lt) : compareLists cmp (a :: r) (b :: s) = .lt := by
  simp [compareLists, before]

end Lists

instance : TransCmp compareBytes := inferInstanceAs (TransCmp (compareLists _))

instance : LawfulEqCmp compareBytes := inferInstanceAs (LawfulEqCmp (compareLists _))

namespace Component

def name : Component → Bytes
  | .normal bytes => bytes
  | _ => []

theorem compare_eq :
    Component.compare = compareLex (compareOn rank) fun a b => compareBytes a.name b.name := by
  funext a b
  cases a <;> cases b <;> rfl

instance : TransCmp Component.compare := by
  have names : TransCmp fun a b : Component => compareBytes a.name b.name :=
    { eq_swap {a b} := @OrientedCmp.eq_swap _ compareBytes _ a.name b.name
      isLE_trans {a b c} := @TransCmp.isLE_trans _ compareBytes _ a.name b.name c.name }
  rw [compare_eq]
  infer_instance

instance : LawfulEqCmp Component.compare where
  compare_self := by
    intro a
    cases a with
    | normal bytes => exact @ReflCmp.compare_self _ compareBytes _ _
    | root | current | parent => rfl
  eq_of_compare := by
    intro a b same
    cases a with
    | normal m =>
      cases b with
      | normal n => exact congrArg normal (@LawfulEqCmp.eq_of_compare _ compareBytes _ _ _ same)
      | root | current | parent => cases same
    | root | current | parent => cases b <;> trivial

end Component

instance : TransCmp Path.compare where
  eq_swap {p q} := @OrientedCmp.eq_swap _ (compareLists Component.compare) _ p.components q.components
  isLE_trans {p q r} := @TransCmp.isLE_trans _ (compareLists Component.compare) _ p.components
    q.components r.components

theorem compare_eq_iff {p q : Path} : p.compare q = .eq ↔ p.components = q.components :=
  @LawfulEqCmp.compare_eq_iff_eq _ (compareLists Component.compare) _ _ _

instance : EquivBEq Path where
  rfl := BEq.rfl (α := List Component)
  symm := BEq.symm (α := List Component)
  trans := BEq.trans (α := List Component)

theorem compare_parting {p q : Path} {front r s : List Component} {m n : Bytes}
    (left : p.components = front ++ .normal m :: r) (right : q.components = front ++ .normal n :: s)
    (before : compareBytes m n = .lt) : p.compare q = .lt := by
  rw [compare, left, right, compareLists_append]
  exact compareLists_head before

end TreeDigest.Path
