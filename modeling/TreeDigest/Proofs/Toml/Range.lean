import TreeDigest.Toml.Range
namespace TreeDigest.Toml

inductive Value.Holdable : Value → Prop where
  | string {s : String} : Holdable (.string s)
  | integer {n : Int} (lower : -Nat.pow 2 127 ≤ n) (upper : n < Nat.pow 2 128) : Holdable (.integer n)
  | real {x : Real} (within : x ≠ .overflow) : Holdable (.real x)
  | boolean {b : Bool} : Holdable (.boolean b)
  | moment : Holdable .moment
  | array {growing : Bool} {items : List Value} (each : ∀ v ∈ items, v.Holdable) :
      Holdable (.array growing items)
  | table {origin : Origin} {entries : Entries} (each : ∀ e ∈ entries, e.2.Holdable) :
      Holdable (.table origin entries)

mutual

theorem overflow?_eq_none : (v : Value) → (v.overflow? = none ↔ v.Holdable)
  | .string s => ⟨fun _ => .string, fun _ => rfl⟩
  | .integer n => by
    have wide : isWithin128Bits n = true ↔ -Nat.pow 2 127 ≤ n ∧ n < Nat.pow 2 128 := by simp [isWithin128Bits]
    rw [Value.overflow?]
    split
    · rename_i fits
      exact ⟨fun _ => .integer (wide.mp fits).1 (wide.mp fits).2, fun _ => rfl⟩
    · rename_i beyond
      refine ⟨nofun, fun holdable => ?_⟩
      cases holdable with
      | integer lower upper => exact absurd (wide.mpr ⟨lower, upper⟩) beyond
  | .real x => by
    have held : (Value.real x).Holdable ↔ x ≠ .overflow := by
      refine ⟨fun holdable => ?_, .real⟩
      cases holdable with
      | real within => exact within
    rw [held]
    cases x <;> simp [Value.overflow?]
  | .boolean b => ⟨fun _ => .boolean, fun _ => rfl⟩
  | .moment => ⟨fun _ => .moment, fun _ => rfl⟩
  | .array growing items => by
    rw [Value.overflow?, overflowOfItems_eq_none]
    refine ⟨.array, fun holdable => ?_⟩
    cases holdable with
    | array each => exact each
  | .table origin entries => by
    rw [Value.overflow?, overflowOfEntries_eq_none]
    refine ⟨.table, fun holdable => ?_⟩
    cases holdable with
    | table each => exact each

theorem overflowOfItems_eq_none : (items : List Value) →
    (overflowOfItems items = none ↔ ∀ v ∈ items, v.Holdable)
  | [] => ⟨fun _ => nofun, fun _ => rfl⟩
  | v :: rest => by
    rw [overflowOfItems, Option.or_eq_none_iff, overflow?_eq_none v, overflowOfItems_eq_none rest,
      List.forall_mem_cons]

theorem overflowOfEntries_eq_none : (entries : List (String × Value)) →
    (overflowOfEntries entries = none ↔ ∀ e ∈ entries, e.2.Holdable)
  | [] => ⟨fun _ => nofun, fun _ => rfl⟩
  | (k, v) :: rest => by
    rw [overflowOfEntries, Option.or_eq_none_iff, overflow?_eq_none v, overflowOfEntries_eq_none rest,
      List.forall_mem_cons]

end

end TreeDigest.Toml
