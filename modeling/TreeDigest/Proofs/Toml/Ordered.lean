import TreeDigest.Proofs.Toml.Edit
namespace TreeDigest.Toml

-- At every depth, the keys of a table are in byte order, and each of them is there once.
inductive Value.Ordered : Value → Prop where
  | string {s : String} : Ordered (.string s)
  | integer {n : Int} : Ordered (.integer n)
  | real {x : Real} : Ordered (.real x)
  | boolean {b : Bool} : Ordered (.boolean b)
  | moment : Ordered .moment
  | array {growing : Bool} {items : List Value} (each : ∀ v ∈ items, v.Ordered) :
      Ordered (.array growing items)
  | table {origin : Origin} {entries : Entries} (ascending : OrderedMap.Ascending compare entries)
      (each : ∀ e ∈ entries, e.2.Ordered) : Ordered (.table origin entries)

variable {dotted : Bool} {change : Origin → Entries → Option Value} {entries : Entries} {key : String}
  {path : List String} {v w : Value} {origin o : Origin}

theorem ordered_none : (Value.table origin []).Ordered := .table .nil nofun

namespace Value.Ordered

theorem entries_ascending (ordered : (Value.table origin entries).Ordered) :
    OrderedMap.Ascending compare entries := by
  cases ordered with
  | table ascending each => exact ascending

theorem get? (ordered : (Value.table origin entries).Ordered) : ∀ v ∈ Entries.get? entries key, v.Ordered := by
  intro v found
  cases ordered with
  | table ascending each => exact each _ (Entries.mem_of_get? found)

theorem put (ordered : (Value.table origin entries).Ordered) (value : v.Ordered) :
    (Value.table o (Entries.put entries key v)).Ordered := by
  cases ordered with
  | table ascending each =>
    refine .table (OrderedMap.insert_ascending ascending) fun e member => ?_
    rcases OrderedMap.mem_insert member with old | ⟨rfl, -⟩ | rfl
    · exact each e old
    · exact value
    · exact value

theorem items {growing : Bool} {items : List Value} (ordered : (Value.array growing items).Ordered) :
    ∀ v ∈ items, v.Ordered := by
  cases ordered with
  | array each => exact each

theorem append {growing : Bool} {items : List Value} (each : ∀ v ∈ items, v.Ordered) (last : w.Ordered) :
    (Value.array growing (items ++ [w])).Ordered := by
  refine .array fun v member => ?_
  rcases List.mem_append.mp member with old | own
  · exact each v old
  · exact List.mem_singleton.mp own ▸ last

end Value.Ordered

theorem alter_ordered {f : Origin → Option Value → Option Value}
    (changes : ∀ origin found, (∀ w ∈ found, w.Ordered) → ∀ r ∈ f origin found, r.Ordered)
    (ordered : v.Ordered) : ∀ r ∈ v.alter key f, r.Ordered := by
  intro r altered
  cases v with
  | table origin entries =>
    obtain ⟨w, changed, rfl⟩ := Option.map_eq_some_iff.mp altered
    exact ordered.put (changes _ _ ordered.get? w changed)
  | _ => cases altered

theorem below_ordered {inner : Value → Option Value} {found : Option Value}
    (goes : ∀ v, v.Ordered → ∀ r ∈ inner v, r.Ordered) (ordered : ∀ w ∈ found, w.Ordered) :
    ∀ r ∈ below dotted inner found, r.Ordered := by
  intro r changed
  unfold below at changed
  split at changed
  · exact goes _ ordered_none r changed
  · rename_i items
    obtain ⟨last, edited, rfl⟩ := Option.map_eq_some_iff.mp changed
    have each := (ordered _ rfl).items
    refine .append (fun v own => each v (List.dropLast_subset _ own)) (goes _ ?_ last edited)
    rw [List.getLastD_eq_getLast?]
    cases found : items.getLast? with
    | none => exact .moment
    | some v => exact each v (List.mem_of_getLast? found)
  · split at changed
    · cases changed
    · exact goes _ (ordered _ rfl) r changed
  · cases changed

theorem edit_ordered (changes : ∀ origin entries, (Value.table origin entries).Ordered →
      ∀ r ∈ change origin entries, r.Ordered)
    (ordered : v.Ordered) : ∀ r ∈ edit dotted change path v, r.Ordered := by
  induction path generalizing v with
  | nil =>
    cases v with
    | table origin entries => simpa only [edit] using changes origin entries ordered
    | _ => simp [edit]
  | cons k path ih =>
    rw [edit_cons]
    exact alter_ordered (fun _ _ => below_ordered fun _ => ih) ordered

theorem addPair_ordered (value : w.Ordered) (ordered : v.Ordered) : ∀ r ∈ addPair path w v, r.Ordered := by
  rcases List.eq_nil_or_concat path with rfl | ⟨path, key, rfl⟩
  · nofun
  · rw [addPair_concat]
    refine edit_ordered (fun origin entries ordered r put => ?_) ordered
    unfold putPair at put
    split at put
    · cases put
    · cases put
      exact ordered.put value

theorem openTable_ordered (ordered : (Value.table origin entries).Ordered) :
    ∀ r ∈ openTable key origin entries, r.Ordered := by
  intro r opened
  unfold openTable at opened
  split at opened
  · cases opened
    exact ordered.put ordered_none
  · rename_i found
    cases opened
    cases ordered.get? _ found with
    | table ascending each => exact ordered.put (.table ascending each)
  · cases opened

theorem openElement_ordered (ordered : (Value.table origin entries).Ordered) :
    ∀ r ∈ openElement key origin entries, r.Ordered := by
  intro r opened
  unfold openElement at opened
  split at opened
  · cases opened
    exact ordered.put (.array (List.forall_mem_singleton.mpr ordered_none))
  · rename_i found
    cases opened
    exact ordered.put (.append (ordered.get? _ found).items ordered_none)
  · cases opened

structure Value.Written (v : Value) : Prop where
  ordered : v.Ordered
  closed : v.Closed

def Statement.Written : Statement → Prop
  | .pair _ v => v.Written
  | _ => True

theorem add_ordered {draft d : Draft} {s : Statement} (value : s.Written) (ordered : draft.root.Ordered)
    (added : draft.add s = some d) : d.root.Ordered := by
  cases s with
  | pair path v =>
    rw [add_pair] at added
    obtain ⟨root, edited, rfl⟩ := Option.map_eq_some_iff.mp added
    exact edit_ordered (fun _ _ ordered => addPair_ordered value.ordered ordered) ordered root edited
  | header path =>
    obtain ⟨key, -, added⟩ := Option.bind_eq_some_iff.mp added
    obtain ⟨root, edited, opened⟩ := Option.bind_eq_some_iff.mp added
    cases opened
    exact edit_ordered (fun _ _ => openTable_ordered) ordered root edited
  | element path =>
    obtain ⟨key, -, added⟩ := Option.bind_eq_some_iff.mp added
    obtain ⟨root, edited, opened⟩ := Option.bind_eq_some_iff.mp added
    cases opened
    exact edit_ordered (fun _ _ => openElement_ordered) ordered root edited

theorem build_ordered {lines : List Statement} (each : ∀ s ∈ lines, s.Written) (built : build lines = some v) :
    v.Ordered := by
  obtain ⟨draft, folded, rfl⟩ := Option.map_eq_some_iff.mp built
  exact foldlM_keeps_of_mem (P := fun d : Draft => d.root.Ordered)
    (fun s own _ _ ordered => add_ordered (each s own) ordered) ordered_none folded

theorem buildInline_written {pairs : List (List String × Value)} (each : ∀ p ∈ pairs, p.2.Written)
    (built : buildInline pairs = some v) : v.Written := by
  obtain ⟨t, folded, built⟩ := Option.bind_eq_some_iff.mp built
  have ordered : t.Ordered := foldlM_keeps_of_mem
    (fun p own _ r ordered => addPair_ordered (each p own).ordered ordered r) ordered_none folded
  cases ordered with
  | table ascending each =>
    cases built
    exact ⟨.table ascending each, rfl⟩
  | _ => cases built

end TreeDigest.Toml
