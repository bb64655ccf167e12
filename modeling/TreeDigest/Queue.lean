namespace TreeDigest

-- First in, first out. `front` starts with the oldest element, `back` with the newest. The size is kept
-- beside them, so that asking for it costs nothing.
structure Queue (α : Type) where
  front : List α
  back : List α
  size : Nat
  size_eq : size = front.length + back.length

namespace Queue

def empty : Queue α := ⟨[], [], 0, rfl⟩

instance : Inhabited (Queue α) := ⟨empty⟩

def toList (q : Queue α) : List α := q.front ++ q.back.reverse

def ofList (xs : List α) : Queue α := ⟨xs, [], xs.length, rfl⟩

def isEmpty (q : Queue α) : Bool := q.size == 0

def push (x : α) (q : Queue α) : Queue α where
  front := q.front
  back := x :: q.back
  size := q.size + 1
  size_eq := congrArg (· + 1) q.size_eq

def pop? : Queue α → Option (α × Queue α)
  | ⟨x :: front, back, size, h⟩ =>
    some (x, ⟨front, back, size - 1, by simp at h; omega⟩)
  | ⟨[], back, _, _⟩ =>
    match back.reverse with
    | x :: front => some (x, ofList front)
    | [] => none

@[simp] theorem toList_empty : (empty : Queue α).toList = [] := rfl

@[simp] theorem toList_ofList (xs : List α) : (ofList xs).toList = xs := by simp [toList, ofList]

@[simp] theorem toList_push (x : α) (q : Queue α) : (q.push x).toList = q.toList ++ [x] := by
  simp [toList, push]

theorem length_toList (q : Queue α) : q.toList.length = q.size := by simp [toList, q.size_eq]

theorem isEmpty_iff (q : Queue α) : q.isEmpty ↔ q.toList = [] := by
  simp [isEmpty, ← length_toList]

theorem pop?_eq_some {q r : Queue α} {x : α} (h : q.pop? = some (x, r)) :
    q.toList = x :: r.toList := by
  unfold pop? at h
  split at h
  · obtain ⟨rfl, rfl⟩ := Prod.mk.inj (Option.some.inj h)
    simp [toList]
  · split at h
    · rename_i hb
      obtain ⟨rfl, rfl⟩ := Prod.mk.inj (Option.some.inj h)
      rw [toList_ofList]
      simpa [toList] using hb
    · simp at h

theorem pop?_eq_none_iff (q : Queue α) : q.pop? = none ↔ q.toList = [] := by
  unfold pop?
  split
  · simp [toList]
  · split <;> rename_i hb <;> simp_all [toList]

end Queue
end TreeDigest
