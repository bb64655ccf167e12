import TreeDigest.Pipeline.Schedule
import TreeDigest.Proofs.Pipeline.Steps
namespace TreeDigest

namespace Schedule
variable {step : σ → ε → Option σ} {P : σ → Prop}

theorem turn_keeps (keeps : ∀ s t e, P s → step s e = some t → P t) (choices : List ε)
    (moved : Bool × σ) (holds : P moved.2) : P (turn step moved choices).2 := by
  unfold turn
  split
  · rename_i t found
    obtain ⟨e, -, stepped⟩ := List.exists_of_findSome?_eq_some found
    exact keeps _ _ e holds stepped
  · exact holds

theorem round_keeps (keeps : ∀ s t e, P s → step s e = some t → P t) (turns : List (List ε))
    (s : σ) (holds : P s) : P (round step turns s).2 := by
  have all : ∀ moved : Bool × σ, P moved.2 → P (turns.foldl (turn step) moved).2 := by
    induction turns with
    | nil => exact fun _ holds => holds
    | cons choices rest ih => exact fun moved holds => ih _ (turn_keeps keeps choices moved holds)
  exact all (false, s) holds

theorem drive_keeps (keeps : ∀ s t e, P s → step s e = some t → P t)
    {sudden : σ → List (List ε)} {turns : List (List ε)} {time : List ε} {stop : σ → Bool}
    {fuel patience left : Nat} {s t : σ} (holds : P s)
    (driven : drive step sudden turns time stop fuel patience s = some (t, left)) :
    P t ∧ stop t = true := by
  induction fuel generalizing s patience with
  | zero => cases driven
  | succ fuel ih =>
    have after := round_keeps keeps (sudden s ++ turns) s holds
    unfold drive at driven
    split at driven
    · rename_i stopped
      cases driven
      exact ⟨holds, stopped⟩
    · split at driven
      rename_i moved u same
      rw [same] at after
      split at driven
      · exact ih after driven
      · split at driven
        · rename_i v found
          obtain ⟨e, -, stepped⟩ := List.exists_of_findSome?_eq_some found
          exact ih (keeps _ _ e after stepped) driven
        · split at driven
          · exact ih after driven
          · cases driven

-- A call that the schedule carries out is one of those that can happen, and it has returned.
theorem complete_reaches {job : Job α β} {client : Client α β} {trips : α → Bool} {s t : Run α β}
    (carried : complete job client trips s = some t) :
    Run.Reaches job client s t ∧ t.result?.isSome = true := by
  unfold complete at carried
  obtain ⟨⟨u, left⟩, driven, rfl⟩ := Option.map_eq_some_iff.mp carried
  exact drive_keeps (fun _ _ e reached stepped => reached.step e stepped) .here driven

theorem complete_returns {job : Job α β} {client : Client α β} {trips : α → Bool} {s : Run α β}
    {r : RunResult α β} {caller : Option Signal}
    (carried : (complete job client trips s).map (fun t => (t.result?, t.pipeline.caller)) =
      some (some r, caller)) :
    ∃ t, Run.Reaches job client s t ∧ t.result? = some r ∧ t.pipeline.caller = caller := by
  obtain ⟨t, carried, equal⟩ := Option.map_eq_some_iff.mp carried
  obtain ⟨returned, same⟩ := Prod.mk.inj equal
  exact ⟨t, (complete_reaches carried).1, returned, same⟩

theorem await_reaches {job : Job α β} {trips : α → Bool} {stop : Pipeline α β → Bool}
    {patience left : Nat} {s t : Pipeline α β}
    (waited : await job trips stop patience s = some (t, left)) :
    Pipeline.Reaches job s t ∧ stop t = true := by
  unfold await at waited
  exact drive_keeps (fun _ _ e reached stepped => reached.step e stepped) .here waited

end Schedule
end TreeDigest
