import TreeDigest.OrderedMap
import TreeDigest.Pipeline.Run
import TreeDigest.Proofs.Sorting
namespace TreeDigest
open Std

def failureOf : Except String β → Option String
  | .ok _ => none
  | .error m => some m

namespace Outcome

def value? (o : Outcome α β) : Option (α × β) := o.result.toOption.map (o.item, ·)

def failure? (o : Outcome α β) : Option (α × String) := (failureOf o.result).map (o.item, ·)

theorem failure?_eq_none {o : Outcome α β} : o.failure? = none ↔ ∃ v, o.result = .ok v := by
  unfold failure?
  cases o.result <;> simp [failureOf]

end Outcome

namespace Collected

def of (seen : List (Outcome α β)) : Collected α β := seen.foldr (fun o c => c.add o) {}

variable {seen other : List (Outcome α β)} {o : Outcome α β}

theorem of_cons : of (o :: seen) = (of seen).add o := rfl

theorem of_values : (of seen).values = seen.filterMap Outcome.value? := by
  induction seen with
  | nil => rfl
  | cons o seen ih =>
    rw [of_cons, List.filterMap_cons]
    cases result : o.result <;> simp [add, Outcome.value?, Except.toOption, result, ih]

theorem of_failures : (of seen).failures = seen.filterMap Outcome.failure? := by
  induction seen with
  | nil => rfl
  | cons o seen ih =>
    rw [of_cons, List.filterMap_cons]
    cases result : o.result <;> simp [add, Outcome.failure?, failureOf, result, ih]

section Lookup
variable [BEq α] {c d : Collected α β} {x : α} {v : β}

theorem get?_eq_some (found : c.get? x = some v) : ∃ y, (x == y) = true ∧ (y, v) ∈ c.values := by
  unfold get? at found
  rw [List.lookup_eq_findSome?] at found
  obtain ⟨⟨y, w⟩, member, here⟩ := List.exists_of_findSome?_eq_some found
  split at here
  · rename_i same
    cases here
    exact ⟨y, same, member⟩
  · cases here

theorem get?_eq_none : c.get? x = none ↔ ∀ e ∈ c.values, (x == e.1) = false := by
  unfold get?
  rw [List.lookup_eq_none_iff]
  simp [bne]

theorem isSome_get?_perm (perm : c.values.Perm d.values) (x : α) :
    (c.get? x).isSome = (d.get? x).isSome := by
  have absent : c.get? x = none ↔ d.get? x = none := by
    simp only [get?_eq_none, perm.mem_iff]
  cases left : c.get? x <;> cases right : d.get? x <;> simp_all

-- Where everything stored for a key is the same, the order in which it came does not show there.
theorem get?_perm (perm : c.values.Perm d.values)
    (agree : ∀ e ∈ c.values, ∀ f ∈ c.values, (x == e.1) = true → (x == f.1) = true → e.2 = f.2) :
    c.get? x = d.get? x := by
  cases left : c.get? x with
  | none =>
    rw [get?_eq_none] at left
    exact (get?_eq_none.mpr fun e member => left e (perm.mem_iff.mpr member)).symm
  | some v =>
    obtain ⟨y, same, member⟩ := get?_eq_some left
    cases right : d.get? x with
    | none =>
      have away := get?_eq_none.mp right _ (perm.mem_iff.mp member)
      simp [same] at away
    | some w =>
      obtain ⟨z, alike, other⟩ := get?_eq_some right
      exact congrArg some (agree _ member _ (perm.mem_iff.mpr other) same alike)

end Lookup

section Sorted
variable {cmp : α → α → Ordering} {entries : List (α × β)} {c : Collected α β}

theorem foldr_replaceNext (ascending : OrderedMap.Ascending cmp entries) :
    entries.foldr (replaceNext cmp) [] = entries := by
  induction entries with
  | nil => rfl
  | cons e rest ih =>
    obtain ⟨above, later⟩ := List.pairwise_cons.mp ascending
    rw [List.foldr_cons, ih later]
    cases rest with
    | nil => rfl
    | cons next rest =>
      have before : cmp e.1 next.1 = .lt := above next (List.mem_cons_self ..)
      simp [replaceNext, before]

theorem toMap_eq [TransCmp cmp] (ascending : OrderedMap.Ascending cmp entries)
    (perm : c.values.Perm entries) : c.toMap cmp = entries := by
  have sorted : (c.values.mergeSort fun a b => (cmp a.1 b.1).isLE) = entries :=
    @mergeSort_eq _ (fun a b : α × β => cmp a.1 b.1) _ _ byKey ascending perm
  rw [toMap, sorted]
  exact foldr_replaceNext ascending

end Sorted
end Collected
end TreeDigest
