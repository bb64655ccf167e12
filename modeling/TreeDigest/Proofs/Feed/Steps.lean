import TreeDigest.Pipeline.Feed
namespace TreeDigest

namespace Feed

-- The steps of the source one by one, each with what allows it. A wait may end in any way that is open.
inductive Step (source : Enumerator α) (capacity : Option Nat) (f : Feed α) (s : Signal) :
    Feed α → Signal → Prop where
  | start (phase : f.phase = .starting) (starts : source.starts = true) :
      Step source capacity f s { f with phase := .asking } s
  | breakDown (phase : f.phase = .starting) (broken : source.starts = false) :
      Step source capacity f s { f with panicked := true, phase := .closing } s
  | ask (phase : f.phase = .asking) :
      Step source capacity f s
        { f with phase := .asked (source.pull f.asked), asked := f.asked + 1 } s
  | panic (phase : f.phase = .asked .panic) :
      Step source capacity f s
        { f with panicked := true, phase := .reporting (.failed panicMessage) } s
  | finish (phase : f.phase = .asked .finished) :
      Step source capacity f s { f with phase := .reporting (.completed f.count) } s
  | accept {x : α} (phase : f.phase = .asked (.item x)) (quiet : s.isTripped = false) :
      Step source capacity f s { f with phase := .offering x } s
  | fail {m : String} (phase : f.phase = .asked (.error m)) (quiet : s.isTripped = false) :
      Step source capacity f s { f with phase := .reporting (.failed m) } s
  | cutOff {answer : Pull α} (phase : f.phase = .asked answer) (tripped : s.isTripped = true) :
      Step source capacity f s { f with phase := .reporting (.cancelled f.count) } s
  | abandon {x : α} (phase : f.phase = .offering x) (alone : f.receivers = 0) :
      Step source capacity f s { f with phase := .reporting (.cancelled f.count) } s
  | interrupt {x : α} (phase : f.phase = .offering x) (woken : s.woken = true) :
      Step source capacity f s { f with phase := .reporting (.cancelled f.count) } s
  | place {x : α} (phase : f.phase = .offering x) (room : hasRoom capacity f.queue = true) :
      Step source capacity f s { f.place x with queue := f.queue.push x } s
  | report {ended : SourceEnd} (phase : f.phase = .reporting ended) :
      Step source capacity f s (f.report ended) s
  | record (phase : f.phase = .recording) :
      Step source capacity f s { f with phase := .waking } (s.record .failed)
  | wake (phase : f.phase = .waking) : Step source capacity f s { f with phase := .closing } s.wake
  | closeItems (phase : f.phase = .closing) (isOpen : f.itemsOpen = true) :
      Step source capacity f s f.closeItems s
  | closeStatus (phase : f.phase = .closing) (isOpen : f.statusOpen = true) :
      Step source capacity f s f.closeStatus s

variable {source : Enumerator α} {capacity : Option Nat} {f g : Feed α} {s t : Signal}

theorem judge_sound {answer : Pull α} (phase : f.phase = .asked answer) :
    Step source capacity f s (f.judge s answer) s := by
  cases answer with
  | panic => exact .panic phase
  | finished => exact .finish phase
  | item x =>
    simp only [judge]
    split
    · rename_i tripped; exact .cutOff phase tripped
    · rename_i quiet; exact .accept phase (by simpa using quiet)
  | error m =>
    simp only [judge]
    split
    · rename_i tripped; exact .cutOff phase tripped
    · rename_i quiet; exact .fail phase (by simpa using quiet)

theorem go_sound (moved : f.advance source capacity s .go = some (g, t)) :
    Step source capacity f s g t := by
  unfold advance at moved
  dsimp only at moved
  cases phase : f.phase with
  | starting =>
    simp only [phase] at moved
    split at moved
    · rename_i starts; cases moved; exact .start phase starts
    · rename_i broken; cases moved; exact .breakDown phase (by simpa using broken)
  | asking => simp only [phase] at moved; cases moved; exact .ask phase
  | asked answer => simp only [phase] at moved; cases moved; exact judge_sound phase
  | offering x => simp [phase] at moved
  | reporting ended => simp only [phase] at moved; cases moved; exact .report phase
  | recording => simp only [phase] at moved; cases moved; exact .record phase
  | waking => simp only [phase] at moved; cases moved; exact .wake phase
  | closing =>
    simp only [phase] at moved
    split at moved
    · rename_i isOpen; cases moved; exact .closeItems phase isOpen
    · cases moved
  | exited => simp [phase] at moved

theorem advance_sound {m : Move} (moved : f.advance source capacity s m = some (g, t)) :
    Step source capacity f s g t := by
  cases m with
  | go => exact go_sound moved
  | message =>
    unfold advance at moved
    dsimp only at moved
    split at moved
    · rename_i x phase
      split at moved
      · rename_i alone; cases moved; exact .abandon phase alone
      · split at moved
        · rename_i room; cases moved; exact .place phase room
        · cases moved
    · rename_i phase
      split at moved
      · rename_i isOpen; cases moved; exact .closeStatus phase isOpen
      · cases moved
    · cases moved
  | signal =>
    unfold advance at moved
    dsimp only at moved
    split at moved
    · rename_i x phase
      split at moved
      · rename_i woken; cases moved; exact .interrupt phase woken
      · cases moved
    · cases moved

inductive Takes (capacity : Option Nat) (f : Feed α) : α → Feed α → Prop where
  | queued {x : α} {rest : Queue α} (popped : f.queue.pop? = some (x, rest)) :
      Takes capacity f x { f with queue := rest }
  | offered {x : α} (empty : f.queue.toList = []) (rendezvous : capacity = some 0)
      (phase : f.phase = .offering x) : Takes capacity f x (f.place x)

theorem take_sound {x : α} (taken : f.take? capacity = some (x, g)) : Takes capacity f x g := by
  unfold take? at taken
  split at taken
  · rename_i popped; cases taken; exact .queued popped
  · rename_i empty
    split at taken
    · rename_i phase; cases taken
      exact .offered ((Queue.pop?_eq_none_iff _).mp empty) rfl phase
    · cases taken

end Feed
end TreeDigest
