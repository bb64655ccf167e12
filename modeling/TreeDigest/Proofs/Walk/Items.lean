import TreeDigest.Proofs.Walk.Order
namespace TreeDigest.TreeWalk

-- What a walk hands on before its first error, and that error.
def leading : List (Except String Path) → List Path
  | .ok path :: rest => path :: leading rest
  | _ => []

def firstError? : List (Except String Path) → Option String
  | .ok _ :: rest => firstError? rest
  | .error m :: _ => some m
  | [] => none

variable {fs : FileSystem} {w : TreeWalk} {items : List (Except String Path)}

theorem leading_sublist : (leading items).Sublist (items.filterMap (·.toOption)) := by
  induction items with
  | nil => exact .slnil
  | cons next rest ih =>
    cases next with
    | ok path => exact ih.cons_cons path
    | error m => exact List.nil_sublist _

theorem leading_getElem? {i : Nat} {path : Path} (found : (leading items)[i]? = some path) :
    items[i]? = some (.ok path) := by
  induction items generalizing i with
  | nil => simp [leading] at found
  | cons next rest ih =>
    cases next with
    | error m => simp [leading] at found
    | ok first =>
      cases i with
      | zero =>
        cases found
        rfl
      | succ i => exact ih found

theorem leading_ends : items[(leading items).length]? = (firstError? items).map .error := by
  induction items with
  | nil => rfl
  | cons next rest ih =>
    cases next with
    | error m => rfl
    | ok path => exact ih

theorem leading_eq (whole : firstError? items = none) : items = (leading items).map .ok := by
  induction items with
  | nil => rfl
  | cons next rest ih =>
    cases next with
    | error m => cases whole
    | ok path => rw [leading, List.map_cons, ← ih whole]

theorem leading_ok (paths : List Path) : leading (paths.map .ok) = paths := by
  induction paths with
  | nil => rfl
  | cons path rest ih => rw [List.map_cons, leading, ih]

theorem firstError?_ok (paths : List Path) : firstError? (paths.map .ok) = none := by
  induction paths with
  | nil => rfl
  | cons path rest ih => exact ih

theorem ok_mem_items {path : Path} :
    .ok path ∈ w.items fs ↔ path ∈ files (w.visits fs) ∧ w.includes path = true := by
  unfold items outcomes
  rw [List.mem_filterMap]
  constructor
  · rintro ⟨outcome, member, handed⟩
    obtain ⟨visit, present, rfl⟩ := List.mem_map.mp member
    rcases visit with e | ⟨own, kind⟩
    · simp only [outcome] at handed
      split at handed
      · simp only [item?] at handed
        split at handed <;> cases handed
      · cases handed
    · cases kind with
      | file =>
        simp only [outcome] at handed
        split at handed
        · rename_i included
          cases handed
          exact ⟨List.mem_filterMap.mpr ⟨_, present, rfl⟩, included⟩
        · cases handed
      | directory | symlink | special => cases handed
  · rintro ⟨visited, included⟩
    obtain ⟨visit, present, own⟩ := List.mem_filterMap.mp visited
    rcases visit with e | ⟨own', kind⟩
    · cases own
    · cases kind with
      | file =>
        cases own
        exact ⟨_, List.mem_map_of_mem present, by simp [outcome, included, item?]⟩
      | directory | symlink | special => cases own

theorem clean_of_items (unskipped : w.skipUnreadable = false) (whole : firstError? (w.items fs) = none)
    {e : WalkError} (visited : .error e ∈ w.visits fs) : w.heeds e = false := by
  cases included : w.heeds e with
  | false => rfl
  | true =>
    have handed : .error e.message ∈ w.items fs := by
      refine List.mem_filterMap.mpr ⟨_, List.mem_map_of_mem visited, ?_⟩
      simp [outcome, included, item?, unskipped]
    rw [leading_eq whole] at handed
    simp at handed

theorem items_sublist : ((w.items fs).filterMap (·.toOption)).Sublist (files (w.visits fs)) := by
  unfold items outcomes
  induction w.visits fs with
  | nil => exact .slnil
  | cons visit rest ih =>
    rw [List.map_cons, List.filterMap_cons]
    rcases visit with e | ⟨path, kind⟩
    · have same : files (.error e :: rest) = files rest := rfl
      rw [same]
      cases here : w.item? (w.outcome (.error e)) with
      | none => exact ih
      | some next =>
        have error : next.toOption = none := by
          simp only [outcome] at here
          split at here <;> simp only [item?] at here
          · split at here <;> cases here
            rfl
          · cases here
        rw [List.filterMap_cons_none error]
        exact ih
    · cases kind with
      | file =>
        have own : files (.ok (path, .file) :: rest) = path :: files rest := rfl
        rw [own]
        cases taken : w.includes path with
        | true => simpa [outcome, item?, taken, Except.toOption] using ih.cons_cons path
        | false => simpa [outcome, item?, taken] using ih.cons path
      | directory | symlink | special => exact ih

theorem leading_ascending (fs : FileSystem) (w : TreeWalk) :
    (leading (w.items fs)).Pairwise fun p q => p.compare q = .lt :=
  (visits_ascending fs w).sublist (leading_sublist.trans items_sublist)

end TreeDigest.TreeWalk
