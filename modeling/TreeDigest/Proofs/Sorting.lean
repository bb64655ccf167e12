namespace TreeDigest
open Std

variable {cmp : α → α → Ordering} {xs ys : List α}

theorem isLE_total [OrientedCmp cmp] (a b : α) : ((cmp a b).isLE || (cmp b a).isLE) = true := by
  rw [@OrientedCmp.eq_swap _ cmp _ b]
  cases cmp a b <;> rfl

theorem lt_of_isLE_of_ne {o : Ordering} (le : o.isLE = true) (other : o ≠ .eq) : o = .lt := by
  cases o <;> simp_all

theorem mergeSort_ascending [TransCmp cmp] (differ : xs.Pairwise fun a b => cmp a b ≠ .eq) :
    (xs.mergeSort fun a b => (cmp a b).isLE).Pairwise fun a b => cmp a b = .lt := by
  have sorted : (xs.mergeSort fun a b => (cmp a b).isLE).Pairwise fun a b => (cmp a b).isLE = true :=
    List.pairwise_mergeSort (fun _ _ _ => TransCmp.isLE_trans) isLE_total xs
  have still : (xs.mergeSort fun a b => (cmp a b).isLE).Pairwise fun a b => cmp a b ≠ .eq :=
    differ.perm (List.mergeSort_perm _ _).symm fun other same => other (OrientedCmp.eq_symm same)
  exact (sorted.and still).imp fun both => lt_of_isLE_of_ne both.1 both.2

theorem ascending_unique [TransCmp cmp] (ascending : xs.Pairwise fun a b => cmp a b = .lt)
    (also : ys.Pairwise fun a b => cmp a b = .lt) (same : ∀ a, a ∈ xs ↔ a ∈ ys) : xs = ys := by
  have differ {a b : α} (before : cmp a b = .lt) : a ≠ b := by
    rintro rfl
    cases (ReflCmp.compare_self : cmp a a = .eq).symm.trans before
  have perm := (List.perm_ext_iff_of_nodup (ascending.imp differ) (also.imp differ)).mpr same
  refine perm.eq_of_pairwise ?_ ascending also
  intro a b _ _ before after
  have never := OrientedCmp.gt_of_lt after
  simp [before] at never

theorem eq_of_ascending [TransCmp cmp] (ascending : xs.Pairwise fun a b => cmp a b = .lt) {a b : α}
    (one : a ∈ xs) (other : b ∈ xs) (same : cmp a b = .eq) : a = b := by
  induction xs with
  | nil => cases one
  | cons x rest ih =>
    obtain ⟨above, later⟩ := List.pairwise_cons.mp ascending
    rcases List.mem_cons.mp one with rfl | first
    · rcases List.mem_cons.mp other with rfl | second
      · rfl
      · cases (above b second).symm.trans same
    · rcases List.mem_cons.mp other with rfl | second
      · cases (above a first).symm.trans (OrientedCmp.eq_symm same)
      · exact ih later first second

theorem mergeSort_eq [TransCmp cmp] (ascending : ys.Pairwise fun a b => cmp a b = .lt)
    (perm : xs.Perm ys) : (xs.mergeSort fun a b => (cmp a b).isLE) = ys := by
  have differ : xs.Pairwise fun a b => cmp a b ≠ .eq := by
    refine List.Pairwise.perm (ascending.imp fun before => ?_) perm.symm
      fun other same => other (OrientedCmp.eq_symm same)
    simp [before]
  refine ascending_unique (mergeSort_ascending differ) ascending fun a => ?_
  exact ((List.mergeSort_perm _ _).trans perm).mem_iff

instance byKey {cmp : κ → κ → Ordering} [TransCmp cmp] :
    TransCmp fun a b : κ × β => cmp a.1 b.1 where
  eq_swap {a b} := @OrientedCmp.eq_swap _ cmp _ a.1 b.1
  isLE_trans {a b c} := @TransCmp.isLE_trans _ cmp _ a.1 b.1 c.1

end TreeDigest
