namespace TreeDigest.OrderedMap
open Std

-- A map is a list of entries in ascending order of their keys. Writing to a key that compares equal
-- keeps the spelling that came first and takes the value that came last.
def insert (cmp : κ → κ → Ordering) (key : κ) (value : α) : List (κ × α) → List (κ × α)
  | [] => [(key, value)]
  | (k, v) :: rest =>
    match cmp key k with
    | .lt => (key, value) :: (k, v) :: rest
    | .eq => (k, value) :: rest
    | .gt => (k, v) :: insert cmp key value rest

def ofList (cmp : κ → κ → Ordering) (entries : List (κ × α)) : List (κ × α) :=
  entries.foldl (fun map e => insert cmp e.1 e.2 map) []

def Ascending (cmp : κ → κ → Ordering) (entries : List (κ × α)) : Prop :=
  entries.Pairwise fun a b => cmp a.1 b.1 = .lt

instance {cmp : κ → κ → Ordering} {entries : List (κ × α)} : Decidable (Ascending cmp entries) :=
  inferInstanceAs (Decidable (entries.Pairwise fun a b => cmp a.1 b.1 = .lt))

variable {cmp : κ → κ → Ordering} {entries : List (κ × α)} {key : κ} {value : α}

theorem mem_insert {e : κ × α} (member : e ∈ insert cmp key value entries) :
    e ∈ entries ∨ e.2 = value ∧ cmp key e.1 = .eq ∨ e = (key, value) := by
  induction entries with
  | nil => exact .inr (.inr (List.mem_singleton.mp member))
  | cons first rest ih =>
    obtain ⟨k, v⟩ := first
    unfold insert at member
    split at member
    · rcases List.mem_cons.mp member with rfl | old
      · exact .inr (.inr rfl)
      · exact .inl old
    · rename_i same
      rcases List.mem_cons.mp member with rfl | old
      · exact .inr (.inl ⟨rfl, same⟩)
      · exact .inl (List.mem_cons_of_mem _ old)
    · rcases List.mem_cons.mp member with rfl | old
      · exact .inl (List.mem_cons_self ..)
      · exact (ih old).imp_left (List.mem_cons_of_mem _)

theorem insert_ascending [TransCmp cmp] (ascending : Ascending cmp entries) :
    Ascending cmp (insert cmp key value entries) := by
  induction entries with
  | nil => exact List.pairwise_singleton _ _
  | cons first rest ih =>
    obtain ⟨k, v⟩ := first
    obtain ⟨above, later⟩ := List.pairwise_cons.mp ascending
    unfold insert
    split
    · rename_i before
      refine List.pairwise_cons.mpr ⟨?_, ascending⟩
      intro e member
      rcases List.mem_cons.mp member with rfl | old
      · exact before
      · exact TransCmp.lt_trans before (above e old)
    · exact List.pairwise_cons.mpr ⟨above, later⟩
    · rename_i after
      refine List.pairwise_cons.mpr ⟨?_, ih later⟩
      intro e member
      have before : cmp k key = .lt := OrientedCmp.lt_of_gt after
      rcases mem_insert member with old | ⟨-, same⟩ | rfl
      · exact above e old
      · exact TransCmp.lt_of_lt_of_eq before same
      · exact before

theorem written_ascending [TransCmp cmp] {map : List (κ × α)} (ascending : Ascending cmp map) :
    Ascending cmp (entries.foldl (fun map e => insert cmp e.1 e.2 map) map) := by
  induction entries generalizing map with
  | nil => exact ascending
  | cons first rest ih => exact ih (insert_ascending ascending)

theorem ofList_ascending [TransCmp cmp] : Ascending cmp (ofList cmp entries) := written_ascending .nil

theorem insert_last (behind : ∀ e ∈ entries, cmp key e.1 = .gt) :
    insert cmp key value entries = entries ++ [(key, value)] := by
  induction entries with
  | nil => rfl
  | cons first rest ih =>
    obtain ⟨k, v⟩ := first
    have after : cmp key k = .gt := behind (k, v) (List.mem_cons_self ..)
    simp [insert, after, ih fun e member => behind e (List.mem_cons_of_mem _ member)]

def Last (key : κ) (value : α) (entries : List (κ × α)) : Prop :=
  ∃ front back, entries = front ++ (key, value) :: back ∧ ∀ e ∈ back, e.1 ≠ key

theorem last_nil : ¬ Last key value [] := by
  rintro ⟨front, back, none, -⟩
  simp at none

theorem last_cons {first : κ × α} : Last key value (first :: entries) ↔
    Last key value entries ∨ first = (key, value) ∧ ∀ e ∈ entries, e.1 ≠ key := by
  constructor
  · rintro ⟨front, back, split, none⟩
    cases front with
    | nil =>
      obtain ⟨rfl, rfl⟩ := List.cons.inj split
      exact .inr ⟨rfl, none⟩
    | cons e front =>
      obtain ⟨-, rfl⟩ := List.cons.inj split
      exact .inl ⟨front, back, rfl, none⟩
  · rintro (⟨front, back, rfl, none⟩ | ⟨rfl, none⟩)
    · exact ⟨first :: front, back, rfl, none⟩
    · exact ⟨[], entries, rfl, none⟩

theorem last_of_nodup (distinct : (entries.map (·.1)).Nodup) :
    Last key value entries ↔ (key, value) ∈ entries := by
  constructor
  · rintro ⟨front, back, rfl, -⟩
    exact List.mem_append_right _ (List.mem_cons_self ..)
  · intro member
    obtain ⟨front, back, rfl⟩ := List.append_of_mem member
    rw [List.map_append, List.map_cons, List.nodup_append, List.nodup_cons] at distinct
    refine ⟨front, back, rfl, fun e later same => distinct.2.1.1 ?_⟩
    exact List.mem_map.mpr ⟨e, later, same⟩

section Exact
variable [TransCmp cmp] [LawfulEqCmp cmp]

-- Where keys that compare equal are equal, writing to one of them replaces its entry and no other.
theorem mem_insert_iff (ascending : Ascending cmp entries) {e : κ × α} :
    e ∈ insert cmp key value entries ↔ e = (key, value) ∨ e ∈ entries ∧ e.1 ≠ key := by
  induction entries with
  | nil => simp [insert]
  | cons first rest ih =>
    obtain ⟨k, v⟩ := first
    obtain ⟨above, later⟩ := List.pairwise_cons.mp ascending
    have differs {o : Ordering} (compared : cmp key k = o) (other : o ≠ .eq) : k ≠ key := by
      rintro rfl
      exact other (compared.symm.trans ReflCmp.compare_self)
    -- The keys further on are greater than the first one, so than any that does not come behind it.
    have beyond {o : Ordering} (compared : cmp key k = o) (least : o ≠ .gt) {x : κ × α} (member : x ∈ rest) :
        x.1 ≠ key := by
      rintro rfl
      exact least (compared.symm.trans (OrientedCmp.gt_of_lt (above x member)))
    unfold insert
    split
    · rename_i before
      rw [List.mem_cons, List.mem_cons]
      refine or_congr_right ⟨fun member => ⟨member, ?_⟩, And.left⟩
      rcases member with rfl | member
      · exact differs before nofun
      · exact beyond before nofun member
    · rename_i same
      cases LawfulEqCmp.eq_of_compare same
      rw [List.mem_cons, List.mem_cons]
      refine or_congr_right ⟨fun member => ⟨.inr member, beyond same nofun member⟩, ?_⟩
      rintro ⟨rfl | member, different⟩
      · exact absurd rfl different
      · exact member
    · rename_i after
      rw [List.mem_cons, ih later, List.mem_cons]
      constructor
      · rintro (rfl | rfl | ⟨member, different⟩)
        · exact .inr ⟨.inl rfl, differs after nofun⟩
        · exact .inl rfl
        · exact .inr ⟨.inr member, different⟩
      · rintro (rfl | ⟨rfl | member, different⟩)
        · exact .inr (.inl rfl)
        · exact .inl rfl
        · exact .inr (.inr ⟨member, different⟩)

theorem mem_written {map : List (κ × α)} (ascending : Ascending cmp map) :
    (key, value) ∈ entries.foldl (fun map e => insert cmp e.1 e.2 map) map ↔
      Last key value entries ∨ (key, value) ∈ map ∧ ∀ e ∈ entries, e.1 ≠ key := by
  induction entries generalizing map with
  | nil => simp [last_nil]
  | cons first rest ih =>
    rw [List.foldl_cons, ih (insert_ascending ascending), mem_insert_iff ascending, last_cons,
      List.forall_mem_cons]
    constructor
    · rintro (later | ⟨own | ⟨old, other⟩, none⟩)
      · exact .inl (.inl later)
      · exact .inl (.inr ⟨own.symm, none⟩)
      · exact .inr ⟨old, Ne.symm other, none⟩
    · rintro ((later | ⟨own, none⟩) | ⟨old, other, none⟩)
      · exact .inl later
      · exact .inr ⟨.inl own.symm, none⟩
      · exact .inr ⟨.inr ⟨old, Ne.symm other⟩, none⟩

theorem mem_ofList : (key, value) ∈ ofList cmp entries ↔ Last key value entries := by
  rw [ofList, mem_written .nil]
  simp

theorem ofList_perm_iff : (ofList cmp entries).Perm entries ↔ (entries.map (·.1)).Nodup := by
  have keys : ((ofList cmp entries).map (·.1)).Nodup := by
    refine List.pairwise_map.mpr (ofList_ascending.imp fun {a b} before same => ?_)
    rw [same] at before
    cases (@ReflCmp.compare_self _ cmp _ b.1).symm.trans before
  have single {entries : List (κ × α)} (keys : (entries.map (·.1)).Nodup) : entries.Nodup :=
    (List.pairwise_map.mp keys).imp fun other same => other (congrArg Prod.fst same)
  constructor
  · exact fun perm => (perm.map _).nodup_iff.mp keys
  · intro distinct
    refine (List.perm_ext_iff_of_nodup (single keys) (single distinct)).mpr fun e => ?_
    rw [mem_ofList, last_of_nodup distinct]

end Exact

section Written
variable [LawfulEqCmp cmp]

theorem ne_of_compared {o : Ordering} {k : κ} (compared : cmp key k = o) (other : o ≠ .eq) : key ≠ k := by
  rintro rfl
  exact other (compared.symm.trans ReflCmp.compare_self)

theorem find?_insert [DecidableEq κ] (entries : List (κ × α)) (key k : κ) (value : α) :
    (insert cmp key value entries).find? (·.1 == k) =
      if key = k then some (key, value) else entries.find? (·.1 == k) := by
  induction entries with
  | nil => by_cases same : key = k <;> simp [insert, same]
  | cons e rest ih =>
    obtain ⟨first, old⟩ := e
    unfold insert
    split
    · by_cases same : key = k <;> simp [same]
    · rename_i equal
      obtain rfl := LawfulEqCmp.eq_of_compare equal
      by_cases same : key = k <;> simp [same]
    · rename_i after
      have other := ne_of_compared after nofun
      by_cases here : first = k
      · subst here
        simp [other]
      · simp only [List.find?_cons, beq_eq_false_iff_ne.mpr here, ih]

theorem insert_placed (fresh : ∀ e ∈ entries, e.1 ≠ key) : ∃ front back, entries = front ++ back ∧
    ∀ value, insert cmp key value entries = front ++ (key, value) :: back := by
  induction entries with
  | nil => exact ⟨[], [], rfl, fun _ => rfl⟩
  | cons e rest ih =>
    obtain ⟨k, v⟩ := e
    obtain ⟨other, fresh⟩ := List.forall_mem_cons.mp fresh
    cases compared : cmp key k with
    | lt => exact ⟨[], (k, v) :: rest, rfl, fun value => by simp [insert, compared]⟩
    | eq => exact absurd (LawfulEqCmp.eq_of_compare compared).symm other
    | gt =>
      obtain ⟨front, back, rfl, placed⟩ := ih fresh
      exact ⟨(k, v) :: front, back, rfl, fun value => by simp [insert, compared, placed]⟩

theorem insert_insert (entries : List (κ × α)) (key : κ) (value later : α) :
    insert cmp key later (insert cmp key value entries) = insert cmp key later entries := by
  have self : cmp key key = .eq := ReflCmp.compare_self
  induction entries with
  | nil => simp only [insert, self]
  | cons e rest ih =>
    obtain ⟨first, old⟩ := e
    cases compared : cmp key first <;> simp only [insert, compared, self, ih]

theorem insert_comm [TransCmp cmp] {k : κ} (apart : key ≠ k) (entries : List (κ × α)) (value other : α) :
    insert cmp k other (insert cmp key value entries) = insert cmp key value (insert cmp k other entries) := by
  have swap : cmp k key = (cmp key k).swap := OrientedCmp.eq_swap
  have differs : cmp key k ≠ .eq := fun same => apart (LawfulEqCmp.eq_of_compare same)
  induction entries with
  | nil => cases order : cmp key k <;> simp_all [insert]
  | cons e rest ih =>
    obtain ⟨first, old⟩ := e
    -- What comes before the first entry comes before what does not.
    have parted {p q : κ} (before : cmp p first = .lt) (after : cmp q first ≠ .lt) : cmp p q = .lt := by
      cases here : cmp q first with
      | lt => exact absurd here after
      | eq => exact LawfulEqCmp.eq_of_compare here ▸ before
      | gt => exact TransCmp.lt_trans before (OrientedCmp.lt_of_gt here)
    have one : cmp key first = .lt → cmp k first ≠ .lt → cmp key k = .lt := parted
    have two : cmp k first = .lt → cmp key first ≠ .lt → cmp k key = .lt := parted
    have never : cmp key first = .eq → cmp k first ≠ .eq := fun own also =>
      apart ((LawfulEqCmp.eq_of_compare own).trans (LawfulEqCmp.eq_of_compare also).symm)
    cases own : cmp key first <;> cases also : cmp k first <;> cases order : cmp key k <;>
      simp_all [insert, -LawfulEqCmp.compare_eq_iff_eq]

end Written

end TreeDigest.OrderedMap
