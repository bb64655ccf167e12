import TreeDigest.Proofs.Cancel.Steps
import TreeDigest.Proofs.Pipeline.Verdict
namespace TreeDigest.Feed

inductive Responds (source : Enumerator α) (capacity : Option Nat) (f : Feed α) (s : Signal) :
    Event → Feed α → Signal → Prop where
  | source {m : Move} {g : Feed α} {t : Signal} (moved : Step source capacity f s g t) :
      Responds source capacity f s (.source m) g t
  | take {x : α} {g : Feed α} (taken : Takes capacity f x g) : Responds source capacity f s .take g s
  | hangUp (accompanied : f.receivers ≠ 0) : Responds source capacity f s .hangUp f.hangUp s
  | stopListening : Responds source capacity f s .stopListening f.stopListening s
  | record {r : CancelReason} (quiet : s.isTripped = false) :
      Responds source capacity f s (.record r) f (s.record r)
  | wake (tripped : s.isTripped = true) : Responds source capacity f s .wake f s.wake

variable {source : Enumerator α} {capacity : Option Nat} {f g h : Feed α} {s t u : Signal} {e : Event}

theorem respond_sound (moved : respond source capacity f s e = some (g, t)) :
    Responds source capacity f s e g t := by
  cases e with
  | source m => exact .source (advance_sound moved)
  | take =>
    simp only [respond] at moved
    split at moved
    · cases moved
    · obtain ⟨⟨x, own⟩, taken, same⟩ := Option.map_eq_some_iff.mp moved
      cases same
      exact .take (take_sound taken)
  | hangUp =>
    simp only [respond] at moved
    split at moved
    · cases moved
    · rename_i accompanied
      cases moved
      exact .hangUp accompanied
  | stopListening =>
    cases moved
    exact .stopListening
  | record r =>
    simp only [respond] at moved
    split at moved
    · cases moved
    · rename_i quiet
      cases moved
      exact .record (by simpa using quiet)
  | wake =>
    simp only [respond] at moved
    split at moved
    · rename_i due
      cases moved
      simp only [Bool.and_eq_true] at due
      exact .wake due.1
    · cases moved

theorem Honest.respond (honest : f.Honest source) (moved : Responds source capacity f s e g t) :
    g.Honest source := by
  cases moved with
  | source moved => exact honest.step moved
  | take taken => exact honest.take taken
  | hangUp => exact honest.hangUp
  | stopListening => exact ⟨honest.yields, honest.standing, honest.doors⟩
  | record | wake => exact honest

theorem Responds.tripped_stays (moved : Responds source capacity f s e g t) (tripped : s.isTripped = true) :
    t.isTripped = true := by
  cases moved with
  | source moved =>
    cases moved with
    | record phase => exact Signal.record_isTripped
    | _ => exact tripped
  | record quiet => exact Signal.record_isTripped
  | _ => exact tripped

theorem Responds.receivers_le (moved : Responds source capacity f s e g t) : g.receivers ≤ f.receivers := by
  cases moved with
  | source moved => exact Nat.le_of_eq moved.receivers_eq
  | take taken => exact Nat.le_of_eq taken.receivers_eq
  | hangUp accompanied => rw [hangUp_receivers]; exact Nat.sub_le ..
  | _ => exact Nat.le_refl _

-- A source gives up before its end only on a trip, or when nobody is left to take its items.
def GaveUp (f : Feed α) (n : Nat) : Prop :=
  f.phase = .reporting (.cancelled n) ∨ .cancelled n ∈ f.reports

theorem Responds.gaveUp_cases {n : Nat} (moved : Responds source capacity f s e g t) (gaveUp : g.GaveUp n) :
    f.GaveUp n ∨ s.isTripped = true ∨ s.woken = true ∨ f.receivers = 0 := by
  have same (phase : g.phase = f.phase) (reports : g.reports = f.reports) : f.GaveUp n := by
    unfold GaveUp at gaveUp
    rwa [phase, reports] at gaveUp
  cases moved with
  | source moved =>
    cases moved with
    | cutOff phase tripped => exact .inr (.inl tripped)
    | interrupt phase woken => exact .inr (.inr (.inl woken))
    | abandon phase alone => exact .inr (.inr (.inr alone))
    | @report ended phase =>
      rcases gaveUp with next | reported
      · cases ended <;> cases next
      · rcases List.mem_cons.mp reported with rfl | before
        · exact .inl (.inl phase)
        · exact .inl (.inr before)
    | closeItems phase isOpen =>
      refine .inl (.inr (gaveUp.resolve_left ?_))
      cases status : f.statusOpen <;> simp [closeItems, status]
    | closeStatus phase isOpen =>
      refine .inl (.inr (gaveUp.resolve_left ?_))
      cases items : f.itemsOpen <;> simp [closeStatus, items]
    | _ => exact .inl (.inr (gaveUp.resolve_left (by simp [place])))
  | take taken =>
    cases taken with
    | queued popped => exact .inl (same rfl rfl)
    | offered empty rendezvous phase => exact .inl (.inr (gaveUp.resolve_left (by simp [place])))
  | hangUp accompanied =>
    refine .inl (same ?_ f.hangUp_posts.2.1)
    unfold Feed.hangUp
    split <;> rfl
  | stopListening | record | wake => exact .inl (same rfl rfl)

structure Delivered (f : Feed α) (s : Signal) : Prop where
  mailbox : f.heard = true → f.mailbox = f.reports.head?
  queued : f.queue.toList <:+ f.emitted.reverse
  gaveUp : ∀ n, f.GaveUp n → s.isTripped = true ∨ f.receivers = 0

theorem Delivered.mailbox_step (delivered : f.Delivered s) (moved : Responds source capacity f s e g t)
    (heard : g.heard = true) : g.mailbox = g.reports.head? := by
  cases moved with
  | source moved =>
    obtain ⟨listening, ⟨reports, mailbox⟩ | ⟨ended, -, reports, mailbox⟩⟩ := moved.posts
    · rw [reports, mailbox]
      exact delivered.mailbox (listening ▸ heard)
    · rw [reports, mailbox, ← listening, if_pos heard]
      rfl
  | take taken =>
    obtain ⟨listening, reports, mailbox⟩ := taken.posts
    rw [reports, mailbox]
    exact delivered.mailbox (listening ▸ heard)
  | hangUp accompanied =>
    obtain ⟨listening, reports, mailbox⟩ := f.hangUp_posts
    rw [reports, mailbox]
    exact delivered.mailbox (listening ▸ heard)
  | stopListening => cases heard
  | record | wake => exact delivered.mailbox heard

theorem Delivered.queued_step (delivered : f.Delivered s) (moved : Responds source capacity f s e g t) :
    g.queue.toList <:+ g.emitted.reverse := by
  have before := delivered.queued
  cases moved with
  | source moved =>
    cases moved with
    | @place x phase room =>
      obtain ⟨front, whole⟩ := before
      exact ⟨front, by simp [Feed.place, ← whole]⟩
    | _ => exact before
  | take taken =>
    cases taken with
    | queued popped => exact (List.suffix_cons ..).trans (Queue.pop?_eq_some popped ▸ before)
    | offered empty rendezvous phase =>
      change f.queue.toList <:+ _
      rw [empty]
      exact List.nil_suffix
  | hangUp accompanied =>
    unfold hangUp
    split
    · exact List.nil_suffix
    · exact before
  | _ => exact before

theorem Delivered.respond (delivered : f.Delivered s) (moved : Responds source capacity f s e g t) :
    g.Delivered t where
  mailbox := delivered.mailbox_step moved
  queued := delivered.queued_step moved
  gaveUp n gaveUp := by
    have tripped (earlier : s.isTripped = true) := moved.tripped_stays earlier
    have alone (earlier : f.receivers = 0) : g.receivers = 0 :=
      Nat.le_zero.mp (earlier ▸ moved.receivers_le)
    rcases moved.gaveUp_cases gaveUp with before | now | woken | now
    · exact (delivered.gaveUp n before).imp tripped alone
    · exact .inl (tripped now)
    · exact .inl (tripped (Signal.isTripped_of_woken woken))
    · exact .inr (alone now)

theorem Honest.reported_stays (honest : f.Honest source) (reported : f.reports ≠ [])
    (moved : Responds source capacity f s e g t) : g.emitted = f.emitted ∧ g.reports = f.reports := by
  have standing := honest.standing
  unfold Standing at standing
  cases moved with
  | source moved =>
    cases moved with
    | start phase | breakDown phase | ask phase | panic phase | finish phase | accept phase | fail phase
    | cutOff phase | abandon phase | interrupt phase | place phase | report phase =>
      simp only [phase] at standing
      exact absurd (by simp_all) reported
    | record | wake | closeItems | closeStatus => exact ⟨rfl, rfl⟩
  | take taken =>
    cases taken with
    | queued popped => exact ⟨rfl, rfl⟩
    | offered empty rendezvous phase =>
      simp only [phase] at standing
      exact absurd standing.2.2.1 reported
  | hangUp accompanied =>
    unfold Feed.hangUp
    split <;> exact ⟨rfl, rfl⟩
  | stopListening | record | wake => exact ⟨rfl, rfl⟩

section Runs
variable (path : Reaches source capacity f s g t)
include path

theorem Honest.lasts (honest : f.Honest source) : g.Honest source := by
  induction path with
  | here => exact honest
  | step e path moved ih => exact ih.respond (respond_sound moved)

theorem Delivered.lasts (delivered : f.Delivered s) : g.Delivered t := by
  induction path with
  | here => exact delivered
  | step e path moved ih => exact ih.respond (respond_sound moved)

theorem Honest.reported_lasts (honest : f.Honest source) (reported : f.reports ≠ []) :
    g.emitted = f.emitted ∧ g.reports = f.reports := by
  induction path with
  | here => exact ⟨rfl, rfl⟩
  | step e path moved ih =>
    obtain ⟨emitted, reports⟩ :=
      (honest.lasts path).reported_stays (ih.2.symm ▸ reported) (respond_sound moved)
    exact ⟨emitted.trans ih.1, reports.trans ih.2⟩

end Runs

structure Accounts (source : Enumerator α) (f : Feed α) (s : Signal) : Prop where
  -- The first answers of the source in their order, and no answer but items.
  placed : source.Yields f.emitted.reverse
  queued : f.queue.toList <:+ f.emitted.reverse
  single : f.reports.length ≤ 1
  heard : f.heard = true → f.mailbox = f.reports.head?
  beforehand : f.itemsOpen = false ∨ f.statusOpen = false → f.reports.length = 1
  atEnd : f.phase = .exited → f.reports.length = 1
  completed : ∀ n, .completed n ∈ f.reports → n = f.emitted.length ∧
    source.Gives f.emitted.reverse .finished
  cancelled : ∀ n, .cancelled n ∈ f.reports → n = f.emitted.length ∧
    (s.isTripped = true ∨ f.receivers = 0)
  failed : ∀ m, .failed m ∈ f.reports → source.Gives f.emitted.reverse (.error m) ∨
    source.Gives f.emitted.reverse .panic ∧ m = "source panicked"

theorem Honest.gives {last : Pull α} (honest : f.Honest source) (starts : source.starts = true)
    (next : source.pull f.count = last) : source.Gives f.emitted.reverse last :=
  ⟨starts, honest.yields, by rw [List.length_reverse]; exact next⟩

theorem Honest.accounts (honest : f.Honest source) (delivered : f.Delivered s)
    (starts : source.starts = true) : f.Accounts source s where
  placed := honest.yields
  queued := delivered.queued
  single := by
    cases reports : f.reports with
    | nil => exact Nat.zero_le _
    | cons ended rest =>
      have first : ended ∈ f.reports := reports ▸ List.mem_cons_self ..
      rw [← reports, (honest.truthful first).1]
      exact Nat.le_refl _
  heard := delivered.mailbox
  beforehand closed := by
    obtain ⟨ended, only⟩ := honest.reported starts closed
    rw [only]
    rfl
  atEnd exited := by
    have doors := honest.doors
    simp only [Doors, exited] at doors
    obtain ⟨ended, only⟩ := honest.reported starts (.inl doors.1)
    rw [only]
    rfl
  completed n reported := by
    obtain ⟨-, ⟨counted, finished⟩, -⟩ := honest.truthful reported
    exact ⟨counted, honest.gives starts finished⟩
  cancelled n reported := by
    obtain ⟨-, counted, -⟩ := honest.truthful reported
    exact ⟨counted, delivered.gaveUp n (.inr reported)⟩
  failed m reported := by
    obtain ⟨-, truth, -⟩ := honest.truthful reported
    exact truth.imp (honest.gives starts) (.imp_left (honest.gives starts))

theorem delivered_fresh (receivers : Nat) : ({ receivers } : Feed α).Delivered s where
  mailbox _ := rfl
  queued := List.nil_suffix
  gaveUp _ gaveUp := by rcases gaveUp with next | reported <;> contradiction

-- Whatever the receivers of a source do, and whoever trips the signal, the source says once how it ended,
-- says so before its channel closes, and what it says is true of what it has placed. After that it is
-- silent.
theorem accounts_truly (starts : source.starts = true) (receivers : Nat)
    (path : Reaches source capacity { receivers } s g t) :
    g.Accounts source t ∧ (g.reports ≠ [] → ∀ h u, Reaches source capacity g t h u →
      h.emitted = g.emitted ∧ h.reports = g.reports) := by
  have honest := (honest_fresh receivers).lasts path
  have delivered := (delivered_fresh receivers).lasts path
  exact ⟨honest.accounts delivered starts, fun reported h u onward => honest.reported_lasts onward reported⟩

theorem Reaches.follows {events : List Event} (path : Reaches source capacity f s g t)
    (ran : events.foldlM (fun r e => respond source capacity r.1 r.2 e) (g, t) = some (h, u)) :
    Reaches source capacity f s h u :=
  foldlM_keeps (P := fun r => Reaches source capacity f s r.1 r.2)
    (fun before moved => before.step _ moved) path ran

-- Two receivers and no capacity. One of them takes the first number and leaves. The signal is tripped while
-- the second number is in the source's hand, and the source hears of it before the other receiver comes.
def threeThenPanic : Enumerator Nat := .ofList [.item 3, .item 4, .item 5, .panic]

def cutShort : List Event :=
  [.source .go, .source .go, .source .go, .take, .hangUp, .source .go, .source .go, .record .requested,
    .wake, .source .signal, .source .go, .source .go, .source .message]

theorem accounts_truly_cutShort :
    ∃ g t, Reaches threeThenPanic (some 0) { receivers := 2 } {} g t ∧ g.phase = .exited ∧
      g.reports = [.cancelled 1] ∧ g.emitted = [3] ∧ g.Accounts threeThenPanic t ∧
      (g.reports ≠ [] → ∀ h u, Reaches threeThenPanic (some 0) g t h u →
        h.emitted = g.emitted ∧ h.reports = g.reports) := by
  have path : Reaches threeThenPanic (some 0) { receivers := 2 } {} _ _ :=
    Reaches.here.follows (show cutShort.foldlM _ (_, _) = some (_, _) from rfl)
  exact ⟨_, _, path, rfl, rfl, rfl, accounts_truly rfl 2 path⟩

end TreeDigest.Feed
