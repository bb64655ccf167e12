namespace TreeDigest

section Keeping
variable {σ ε : Type} {step : σ → ε → Option σ} {P : σ → Prop} {events : List ε} {s t : σ}

theorem foldlM_keeps_of_mem (keeps : ∀ e ∈ events, ∀ s t, P s → step s e = some t → P t) (holds : P s)
    (ran : events.foldlM step s = some t) : P t := by
  induction events generalizing s with
  | nil =>
    cases ran
    exact holds
  | cons e rest ih =>
    rw [List.foldlM_cons] at ran
    obtain ⟨first, later⟩ := List.forall_mem_cons.mp keeps
    obtain ⟨u, moved, onward⟩ := Option.bind_eq_some_iff.mp ran
    exact ih later (first s u holds moved) onward

theorem foldlM_keeps (keeps : ∀ {s t : σ} {e : ε}, P s → step s e = some t → P t) (holds : P s)
    (ran : events.foldlM step s = some t) : P t :=
  foldlM_keeps_of_mem (fun _ _ _ _ => keeps) holds ran

end Keeping

section Reordering
variable {m : Type u → Type u} [Monad m] [LawfulMonad m] {σ : Type u} {α : Type v} {step : σ → α → m σ}

theorem foldlM_first {x : α} {front : List α} (back : List α)
    (commutes : ∀ y ∈ front, ∀ s, (step s y >>= (step · x)) = (step s x >>= (step · y))) (s : σ) :
    (front ++ x :: back).foldlM step s = (x :: (front ++ back)).foldlM step s := by
  induction front generalizing s with
  | nil => rfl
  | cons y front ih =>
    obtain ⟨own, later⟩ := List.forall_mem_cons.mp commutes
    calc (y :: front ++ x :: back).foldlM step s
        = step s y >>= fun s => (x :: (front ++ back)).foldlM step s := by
          simp only [List.cons_append, List.foldlM_cons, ih later]
      _ = (step s y >>= (step · x)) >>= fun s => (front ++ back).foldlM step s := by
          simp only [List.foldlM_cons, bind_assoc]
      _ = (step s x >>= (step · y)) >>= fun s => (front ++ back).foldlM step s := by rw [own]
      _ = (x :: (y :: front ++ back)).foldlM step s := by
          simp only [List.cons_append, List.foldlM_cons, bind_assoc]

-- Steps may be taken in any order that keeps the order of those which do not commute.
theorem foldlM_reordered {held : α → Bool} {xs ys : List α}
    (commutes : ∀ x ∈ xs, ∀ y ∈ xs, (held x && held y) = false →
      ∀ s, (step s x >>= (step · y)) = (step s y >>= (step · x)))
    (perm : xs.Perm ys) (order : xs.filter held = ys.filter held) (s : σ) :
    xs.foldlM step s = ys.foldlM step s := by
  induction xs generalizing ys s with
  | nil => rw [perm.nil_eq]
  | cons x xs ih =>
    obtain ⟨front, back, rfl, apart, later⟩ : ∃ front back, ys = front ++ x :: back ∧
        (∀ y ∈ front, (held y && held x) = false) ∧ xs.filter held = (front ++ back).filter held := by
      cases free : held x with
      | false =>
        obtain ⟨front, back, rfl⟩ := List.append_of_mem (perm.subset (List.mem_cons_self ..))
        refine ⟨front, back, rfl, fun y _ => Bool.and_false _, ?_⟩
        simpa [free] using order
      | true =>
        rw [List.filter_cons_of_pos free] at order
        obtain ⟨front, back, rfl, none, -, later⟩ := List.filter_eq_cons_iff.mp order.symm
        refine ⟨front, back, rfl, fun y own => by simp [none y own], ?_⟩
        rw [List.filter_append, List.filter_eq_nil_iff.mpr none, List.nil_append, later]
    have one {y : α} (own : y ∈ front) : y ∈ x :: xs := perm.symm.subset (List.mem_append_left _ own)
    rw [foldlM_first back fun y own => commutes y (one own) x (List.mem_cons_self ..) (apart y own),
      List.foldlM_cons, List.foldlM_cons]
    have rest : xs.Perm (front ++ back) := (perm.trans List.perm_middle).cons_inv
    exact bind_congr fun s => ih (fun x own y also =>
      commutes x (List.mem_cons_of_mem _ own) y (List.mem_cons_of_mem _ also)) rest later s

theorem foldlM_perm {xs ys : List α}
    (commutes : ∀ x ∈ xs, ∀ y ∈ xs, ∀ s, (step s x >>= (step · y)) = (step s y >>= (step · x)))
    (perm : xs.Perm ys) (s : σ) : xs.foldlM step s = ys.foldlM step s := by
  have none (zs : List α) : (zs.filter fun _ => false) = [] := List.filter_eq_nil_iff.mpr fun _ _ => nofun
  exact foldlM_reordered (fun x own y also _ => commutes x own y also) perm ((none xs).trans (none ys).symm) s

end Reordering
end TreeDigest
