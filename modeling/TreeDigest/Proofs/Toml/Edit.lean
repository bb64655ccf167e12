import TreeDigest.OrderedMap
import TreeDigest.Proofs.Folds
import TreeDigest.Proofs.Sorting
import TreeDigest.Toml.Document
namespace TreeDigest.Toml

variable {dotted : Bool} {entries : Entries} {key k : String} {v w : Value} {origin : Origin}

namespace Entries

theorem get?_put : get? (put entries key v) k = if key = k then some v else get? entries k := by
  unfold get? put
  rw [OrderedMap.find?_insert]
  split <;> rfl

theorem put_put : put (put entries key v) key w = put entries key w :=
  OrderedMap.insert_insert entries key v w

theorem put_comm (apart : key ≠ k) : put (put entries key v) k w = put (put entries k w) key v :=
  OrderedMap.insert_comm apart entries v w

theorem get?_cons {rest : Entries} : get? ((key, v) :: rest) k = if key = k then some v else get? rest k := by
  by_cases same : key = k <;> simp [get?, same]

theorem get?_of_above (above : ∀ e ∈ entries, compare key e.1 = .lt) : get? entries key = none := by
  have none : entries.find? (·.1 == key) = none := by
    refine List.find?_eq_none.mpr fun e own same => ?_
    have before := above e own
    rw [eq_of_beq same, Std.ReflOrd.compare_self] at before
    cases before
  rw [get?, none]
  rfl

theorem mem_of_get? (found : get? entries key = some v) : (key, v) ∈ entries := by
  obtain ⟨e, own, rfl⟩ := Option.map_eq_some_iff.mp found
  have same : e.1 = key := by simpa using List.find?_some own
  exact same ▸ List.mem_of_find?_eq_some own

theorem get?_eq_none : get? entries key = none ↔ ∀ e ∈ entries, e.1 ≠ key := by
  simp [get?]

theorem put_placed (apart : ∀ e ∈ entries, e.1 ≠ key) :
    ∃ front back, entries = front ++ back ∧ ∀ v, put entries key v = front ++ (key, v) :: back :=
  OrderedMap.insert_placed apart

theorem eq_of_perm {others : Entries} (ascending : OrderedMap.Ascending compare entries)
    (also : OrderedMap.Ascending compare others) (perm : entries.Perm others) : entries = others :=
  ascending_unique ascending also fun _ => perm.mem_iff

theorem put_filter (ascending : OrderedMap.Ascending compare entries) (found : get? entries key = some v) :
    put (entries.filter (·.1 ≠ key)) key v = entries := by
  have rest : OrderedMap.Ascending compare (entries.filter (·.1 ≠ key)) := ascending.filter _
  refine ascending_unique (OrderedMap.insert_ascending rest) ascending fun e => ?_
  have single (own : e ∈ entries) (same : e.1 = key) : e = (key, v) :=
    eq_of_ascending ascending own (mem_of_get? found) (by rw [same]; exact Std.ReflCmp.compare_self)
  refine (OrderedMap.mem_insert_iff rest).trans ?_
  rw [List.mem_filter]
  constructor
  · rintro (rfl | ⟨⟨own, -⟩, -⟩)
    · exact mem_of_get? found
    · exact own
  · intro own
    by_cases same : e.1 = key
    · exact .inl (single own same)
    · exact .inr ⟨⟨own, by simpa using same⟩, same⟩

end Entries

def Keeps (change : Origin → Entries → Option Value) : Prop :=
  ∀ origin entries r, change origin entries = some r → ∃ es, r = .table origin es

def Value.alter (key : String) (change : Origin → Option Value → Option Value) : Value → Option Value
  | .table origin entries =>
    (change origin (Entries.get? entries key)).map fun v => .table origin (Entries.put entries key v)
  | _ => none

section Alter
variable {f g : Origin → Option Value → Option Value}

theorem alter_keeps : Keeps fun origin entries => (Value.table origin entries).alter key f := by
  intro origin entries r altered
  obtain ⟨v, -, rfl⟩ := Option.map_eq_some_iff.mp altered
  exact ⟨_, rfl⟩

theorem alter_alter : (v.alter key f).bind (Value.alter key g) =
    v.alter key fun origin found => (f origin found).bind fun w => g origin (some w) := by
  cases v with
  | table origin entries =>
    cases first : f origin (Entries.get? entries key) with
    | none => simp [Value.alter, first]
    | some w => simp [Value.alter, first, Entries.get?_put, Entries.put_put]
  | _ => rfl

theorem alter_congr (same : ∀ origin found, f origin found = g origin found) :
    v.alter key f = v.alter key g := by
  rw [funext fun origin => funext (same origin)]

-- Changes under different keys do not meet, and it takes no more than that those under one key do not mind.
theorem alter_comm (meet : key = k → ∀ origin found, ((f origin found).bind fun w => g origin (some w)) =
      (g origin found).bind fun w => f origin (some w)) :
    (v.alter key f).bind (Value.alter k g) = (v.alter k g).bind (Value.alter key f) := by
  by_cases same : key = k
  · subst same
    rw [alter_alter, alter_alter, alter_congr (meet rfl)]
  · cases v with
    | table origin entries =>
      cases first : f origin (Entries.get? entries key) <;> cases second : g origin (Entries.get? entries k) <;>
        simp [Value.alter, first, second, Entries.get?_put, same, Ne.symm same, Entries.put_comm same]
    | _ => rfl

end Alter

def below (dotted : Bool) (inner : Value → Option Value) : Option Value → Option Value
  | none => inner (.table (if dotted then .dotted else .implied) [])
  | some (.array true items) =>
    (inner (items.getLastD .moment)).map fun v => .array true (items.dropLast ++ [v])
  | some (.table o es) => if o = .inline ∨ (dotted ∧ o = .header) then none else inner (.table o es)
  | some _ => none

-- Going on where another change has been finds the same way, as tables and their kinds stay where they are.
theorem below_below {inner next : Value → Option Value} {found : Option Value}
    (keeps : Keeps fun origin entries => inner (.table origin entries)) :
    ((below dotted inner found).bind fun v => below dotted next (some v)) =
      below dotted (fun v => (inner v).bind next) found := by
  have entered {o : Origin} {es : Entries} (enterable : ¬ (o = .inline ∨ (dotted ∧ o = .header))) :
      ((inner (.table o es)).bind fun v => below dotted next (some v)) = (inner (.table o es)).bind next := by
    cases first : inner (.table o es) with
    | none => rfl
    | some r =>
      obtain ⟨es, rfl⟩ := keeps _ _ _ first
      simp [below, enterable]
  cases found with
  | none => exact entered (by cases dotted <;> decide)
  | some found =>
    cases found with
    | array growing items =>
      cases growing with
      | false => rfl
      | true =>
        simp only [below]
        cases inner (items.getLastD .moment) <;> simp
    | table o es =>
      simp only [below]
      split
      · rfl
      · rename_i enterable
        exact entered enterable
    | _ => rfl

section Edit
variable {change f g : Origin → Entries → Option Value} {path : List String}

theorem edit_cons : edit dotted change (k :: path) =
    Value.alter k fun _ => below dotted (edit dotted change path) := by
  funext v
  cases v with
  | table origin entries =>
    have made (x : Option Value) : (do return Value.table origin (Entries.put entries k (← x))) =
        x.map fun v => Value.table origin (Entries.put entries k v) := by cases x <;> rfl
    simp only [edit, Value.alter]
    cases Entries.get? entries k with
    | none => exact made _
    | some found =>
      cases found with
      | array growing items => cases growing <;> exact made _
      | table o es =>
        simp only [below]
        split <;> exact made _
      | _ => exact made none
  | _ => simp [edit, Value.alter]

theorem edit_keeps (keeps : Keeps change) :
    Keeps fun origin entries => edit dotted change path (.table origin entries) := by
  cases path with
  | nil => simpa only [edit] using keeps
  | cons k path => simpa only [edit_cons] using alter_keeps

theorem edit_congr (same : ∀ origin entries, f origin entries = g origin entries) :
    edit dotted f path v = edit dotted g path v := by
  rw [funext fun origin => funext (same origin)]

theorem edit_edit (keeps : Keeps f) : (edit dotted f path v).bind (edit dotted g path) =
    edit dotted (fun origin entries => (f origin entries).bind (edit dotted g [])) path v := by
  induction path generalizing v with
  | nil => cases v <;> simp [edit]
  | cons k path ih =>
    rw [edit_cons, edit_cons, alter_alter, edit_cons]
    refine alter_congr fun origin found => ?_
    rw [below_below (edit_keeps keeps), funext fun v => ih]

end Edit

-- What a key stands for once it is written: nothing is added to it later.
def Value.Closed : Value → Prop
  | .array growing _ => growing = false
  | .table origin _ => origin = .inline
  | _ => True

theorem below_closed {inner : Value → Option Value} (closed : v.Closed) :
    below dotted inner (some v) = none := by
  cases v with
  | array growing items =>
    cases closed
    rfl
  | table origin entries =>
    cases closed
    simp [below]
  | _ => rfl

def fresh (dotted : Bool) (value : Value) (origin : Origin) (found : Option Value) : Option Value :=
  if (origin = .dotted) ≠ dotted ∨ found.isSome then none else some value

theorem edit_putPair {also : Bool} :
    edit also (putPair dotted key v) [] = Value.alter key (fresh dotted v) := by
  funext t
  cases t with
  | table origin entries =>
    simp only [edit, putPair, Value.alter, fresh]
    split <;> rfl
  | _ => simp [edit, Value.alter]

theorem putPair_keeps : Keeps (putPair dotted key v) := by
  intro origin entries r put
  unfold putPair at put
  split at put
  · cases put
  · exact ⟨_, (Option.some.inj put).symm⟩

section Pairs
variable {d e : Bool}

theorem bind_fresh {written : Option Value} :
    (written.bind fun found => fresh d v origin (some found)) = none := by
  cases written <;> simp [fresh]

theorem fresh_below {inner : Value → Option Value} {found : Option Value} (closed : v.Closed) :
    ((fresh d v origin found).bind fun v => below dotted inner (some v)) = none := by
  unfold fresh
  split
  · rfl
  · exact below_closed closed

-- Two pairs below one table may be added in either order, wherever their paths lead. If they are at odds,
-- they are so in both.
theorem putPair_comm (closed : v.Closed) (also : w.Closed) (front back : List String) (t : Value) :
    (edit true (putPair d key v) front t).bind (edit true (putPair e k w) back) =
      (edit true (putPair e k w) back t).bind (edit true (putPair d key v) front) := by
  induction front generalizing back t with
  | nil =>
    cases back with
    | nil =>
      rw [edit_putPair, edit_putPair]
      exact alter_comm fun _ _ _ => bind_fresh.trans bind_fresh.symm
    | cons j back =>
      rw [edit_putPair, edit_cons]
      exact alter_comm fun _ _ _ => (fresh_below closed).trans bind_fresh.symm
  | cons i front ih =>
    cases back with
    | nil =>
      rw [edit_putPair, edit_cons]
      exact alter_comm fun _ _ _ => bind_fresh.trans (fresh_below also).symm
    | cons j back =>
      rw [edit_cons, edit_cons]
      refine alter_comm fun _ _ _ => ?_
      rw [below_below (edit_keeps putPair_keeps), below_below (edit_keeps putPair_keeps), funext (ih back)]

variable {path other : List String}

theorem addPair_nil : addPair [] v = fun _ => none := rfl

theorem addPair_concat : addPair (path.concat key) v = edit true (putPair (path ≠ []) key v) path := by
  have dots : decide ((path ++ [key]).length ≠ 1) = decide (path ≠ []) := by cases path <;> simp
  funext t
  rw [List.concat_eq_append, addPair, List.getLast?_concat, List.dropLast_concat, dots]
  rfl

theorem addPair_comm (closed : v.Closed) (also : w.Closed) (t : Value) :
    (addPair path v t).bind (addPair other w) = (addPair other w t).bind (addPair path v) := by
  rcases List.eq_nil_or_concat path with rfl | ⟨path, key, rfl⟩
  · cases second : addPair other w t <;> simp [addPair_nil]
  · rcases List.eq_nil_or_concat other with rfl | ⟨other, k, rfl⟩
    · cases first : addPair (path.concat key) v t <;> simp [addPair_nil]
    · rw [addPair_concat, addPair_concat]
      exact putPair_comm closed also path other t

def addHere (path : List String) (value : Value) (origin : Origin) (entries : Entries) : Option Value :=
  addPair path value (.table origin entries)

theorem addHere_keeps : Keeps (addHere path v) := by
  unfold Keeps addHere
  rcases List.eq_nil_or_concat path with rfl | ⟨path, key, rfl⟩
  · intro origin entries r added
    cases added
  · rw [addPair_concat]
    exact edit_keeps putPair_keeps

theorem add_pair {draft : Draft} : draft.add (.pair path v) =
    (edit false (addHere path v) draft.current draft.root).map fun root => { draft with root } := by
  rw [Draft.add]
  change (edit false (addHere path v) draft.current draft.root >>= _) = _
  cases edit false (addHere path v) draft.current draft.root <;> rfl

theorem add_add (draft : Draft) : (draft.add (.pair path v)).bind (Draft.add · (.pair other w)) =
    (edit false (fun origin entries => (addHere path v origin entries).bind (addPair other w))
      draft.current draft.root).map fun root => { draft with root } := by
  calc
    _ = ((edit false (addHere path v) draft.current draft.root).bind
          (edit false (addHere other w) draft.current)).map fun root => { draft with root } := by
      simp only [add_pair]
      cases edit false (addHere path v) draft.current draft.root <;> rfl
    _ = _ := by
      rw [edit_edit addHere_keeps]
      refine congrArg (Option.map _) (edit_congr fun origin entries => ?_)
      cases first : addHere path v origin entries with
      | none => rfl
      | some r =>
        obtain ⟨es, rfl⟩ := addHere_keeps _ _ _ first
        simp [edit, addHere]

theorem add_comm (closed : v.Closed) (also : w.Closed) (draft : Draft) :
    (draft.add (.pair path v)).bind (Draft.add · (.pair other w)) =
      (draft.add (.pair other w)).bind (Draft.add · (.pair path v)) := by
  rw [add_add, add_add]
  exact congrArg (Option.map _) (edit_congr fun origin entries => addPair_comm closed also _)

end Pairs

def Statement.ofPair (p : List String × Value) : Statement := .pair p.1 p.2

variable {pairs others : List (List String × Value)}

theorem build_reordered (closed : ∀ p ∈ pairs, p.2.Closed) (perm : pairs.Perm others)
    (front back : List Statement) :
    build (front ++ pairs.map .ofPair ++ back) = build (front ++ others.map .ofPair ++ back) := by
  have run (draft : Draft) : (pairs.map Statement.ofPair).foldlM Draft.add draft =
      (others.map Statement.ofPair).foldlM Draft.add draft := by
    rw [List.foldlM_map, List.foldlM_map]
    exact foldlM_perm (fun p own q also => add_comm (closed p own) (closed q also)) perm draft
  simp only [build, List.foldlM_append, run]

end TreeDigest.Toml
