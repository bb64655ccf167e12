import TreeDigest.CommandLine.Basic
import TreeDigest.Proofs.Toml.Edit
import TreeDigest.Settings.Reader
namespace TreeDigest

inductive Choice where
  | workers
  | timeout
  | exclude
  | flag (f : Flag)
  deriving DecidableEq, Repr

namespace Settings

def flag? (s : Settings) : Flag → Option Bool
  | .followLinks => s.followLinks
  | .parallelWalk => s.parallelWalk
  | .keepGoing => s.keepGoing
  | .skipUnreadable => s.skipUnreadable
  | .json => s.json
  | .verbose => s.verbose

def withFlag (s : Settings) (b : Bool) : Flag → Settings
  | .followLinks => { s with followLinks := some b }
  | .parallelWalk => { s with parallelWalk := some b }
  | .keepGoing => { s with keepGoing := some b }
  | .skipUnreadable => { s with skipUnreadable := some b }
  | .json => { s with json := some b }
  | .verbose => { s with verbose := some b }

end Settings

namespace Choice

def key : Choice → String
  | .workers => "workers"
  | .timeout => "timeout_secs"
  | .exclude => "exclude"
  | .flag .followLinks => "follow_links"
  | .flag .parallelWalk => "parallel_walk"
  | .flag .keepGoing => "keep_going"
  | .flag .skipUnreadable => "skip_unreadable"
  | .flag .json => "json"
  | .flag .verbose => "verbose"

def ofKey? : String → Option Choice
  | "workers" => some .workers
  | "timeout_secs" => some .timeout
  | "exclude" => some .exclude
  | "follow_links" => some (.flag .followLinks)
  | "parallel_walk" => some (.flag .parallelWalk)
  | "keep_going" => some (.flag .keepGoing)
  | "skip_unreadable" => some (.flag .skipUnreadable)
  | "json" => some (.flag .json)
  | "verbose" => some (.flag .verbose)
  | _ => none

theorem ofKey?_key (c : Choice) : ofKey? c.key = some c := by
  rcases c with _ | _ | _ | (_ | _ | _ | _ | _ | _) <;> rfl

theorem key_injective {c d : Choice} (same : c.key = d.key) : c = d :=
  Option.some.inj (by rw [← ofKey?_key c, same, ofKey?_key d])

def Given : Choice → Type
  | .workers | .timeout => UInt64
  | .exclude => List String
  | .flag _ => Bool

def Denotes : (c : Choice) → Toml.Value → c.Given → Prop
  | .workers, v, (n : UInt64) | .timeout, v, (n : UInt64) => v = .integer n.toNat
  | .exclude, v, (ps : List String) => ∃ growing, v = .array growing (ps.map .string)
  | .flag _, v, (b : Bool) => v = .boolean b

def read : (c : Choice) → Toml.Value → Except SettingsError c.Given
  | .workers => Settings.readWord .size
  | .timeout => Settings.readWord .seconds
  | .exclude => Settings.readStrings
  | .flag _ => Settings.readBoolean

end Choice

theorem bind_ok_iff {x : Except ε α} {f : α → Except ε β} {b : β} :
    (x >>= f) = .ok b ↔ ∃ a, x = .ok a ∧ f a = .ok b := by
  cases x <;> simp [bind, Except.bind]

theorem map_ok_iff {x : Except ε α} {f : α → β} {b : β} : x.map f = .ok b ↔ ∃ a, x = .ok a ∧ f a = b := by
  cases x <;> simp [Except.map]

namespace Settings
variable {s t : Settings} {c d : Choice} {v : Toml.Value}

def given? (s : Settings) : (c : Choice) → Option c.Given
  | .workers => s.workers
  | .timeout => s.timeoutSeconds
  | .exclude => s.exclude
  | .flag f => s.flag? f

def give (s : Settings) : (c : Choice) → c.Given → Settings
  | .workers, (n : UInt64) => { s with workers := some n }
  | .timeout, (n : UInt64) => { s with timeoutSeconds := some n }
  | .exclude, (ps : List String) => { s with exclude := some ps }
  | .flag f, (b : Bool) => s.withFlag b f

theorem given?_give_self (x : c.Given) : (s.give c x).given? c = some x := by
  rcases c with _ | _ | _ | (_ | _ | _ | _ | _ | _) <;> rfl

theorem given?_give (other : c ≠ d) (x : c.Given) : (s.give c x).given? d = s.given? d := by
  rcases c with _ | _ | _ | (_ | _ | _ | _ | _ | _) <;> rcases d with _ | _ | _ | (_ | _ | _ | _ | _ | _) <;>
    first | rfl | exact absurd rfl other

theorem given?_none (c : Choice) : ({} : Settings).given? c = none := by
  rcases c with _ | _ | _ | (_ | _ | _ | _ | _ | _) <;> rfl

theorem readField_key : readField s c.key v = (c.read v).map (s.give c) := by
  rcases c with _ | _ | _ | (_ | _ | _ | _ | _ | _) <;> rfl

theorem readField_unknown {name : String} (unknown : ∀ c : Choice, c.key ≠ name) :
    readField s name v = .error (.unknownField name) := by
  unfold readField
  split
  · exact absurd rfl (unknown .workers)
  · exact absurd rfl (unknown .timeout)
  · exact absurd rfl (unknown .exclude)
  · exact absurd rfl (unknown (.flag .followLinks))
  · exact absurd rfl (unknown (.flag .parallelWalk))
  · exact absurd rfl (unknown (.flag .skipUnreadable))
  · exact absurd rfl (unknown (.flag .keepGoing))
  · exact absurd rfl (unknown (.flag .json))
  · exact absurd rfl (unknown (.flag .verbose))
  · rfl

theorem readWord_ok {expected : Expected} {n : UInt64} :
    readWord expected v = .ok n ↔ v = .integer n.toNat := by
  constructor
  · intro read
    unfold readWord at read
    split at read
    · rename_i m
      split at read
      · rename_i within
        cases read
        have fits : m.toNat < UInt64.size := (Int.toNat_lt within.1).mpr within.2
        rw [Nat.toUInt64, UInt64.toNat_ofNat_of_lt' fits, Int.toNat_of_nonneg within.1]
      · split at read <;> cases read
    · cases read
  · rintro rfl
    have fits : 0 ≤ (n.toNat : Int) ∧ (n.toNat : Int) < UInt64.size :=
      ⟨Int.natCast_nonneg _, Int.ofNat_lt.mpr n.toNat_lt_size⟩
    simp only [readWord, if_pos fits, Int.toNat_natCast, Nat.toUInt64, UInt64.ofNat_toNat]

theorem readBoolean_ok {b : Bool} : readBoolean v = .ok b ↔ v = .boolean b := by
  cases v <;> simp [readBoolean]

theorem readString_ok {p : String} : readString v = .ok p ↔ v = .string p := by
  cases v <;> simp [readString]

theorem mapM_readString_ok {items : List Toml.Value} {ps : List String} :
    items.mapM readString = .ok ps ↔ items = ps.map .string := by
  induction items generalizing ps with
  | nil => cases ps <;> simp [pure, Except.pure]
  | cons v items ih =>
    rw [List.mapM_cons, bind_ok_iff]
    constructor
    · rintro ⟨p, first, later⟩
      obtain ⟨rest, read, same⟩ := bind_ok_iff.mp later
      cases same
      rw [readString_ok.mp first, ih.mp read, List.map_cons]
    · intro same
      cases ps with
      | nil => cases same
      | cons p ps =>
        obtain ⟨rfl, rfl⟩ := List.cons.inj same
        exact ⟨p, rfl, bind_ok_iff.mpr ⟨ps, ih.mpr rfl, rfl⟩⟩

theorem readStrings_ok {ps : List String} :
    readStrings v = .ok ps ↔ ∃ growing, v = .array growing (ps.map .string) := by
  cases v with
  | array growing items => simp [readStrings, mapM_readString_ok]
  | _ => simp [readStrings]

theorem read_ok {x : c.Given} : c.read v = .ok x ↔ c.Denotes v x := by
  rcases c with _ | _ | _ | f
  · exact readWord_ok
  · exact readWord_ok
  · exact readStrings_ok
  · exact readBoolean_ok

-- The values a setting of this name can have.
def Fits (name : String) (v : Toml.Value) : Prop := ∃ c : Choice, c.key = name ∧ ∃ x, c.Denotes v x

theorem readField_ok {name : String} :
    readField s name v = .ok t ↔ ∃ c : Choice, c.key = name ∧ ∃ x, c.Denotes v x ∧ s.give c x = t := by
  constructor
  · intro read
    by_cases known : ∃ c : Choice, c.key = name
    · obtain ⟨c, rfl⟩ := known
      rw [readField_key] at read
      obtain ⟨x, own, same⟩ := map_ok_iff.mp read
      exact ⟨c, rfl, x, read_ok.mp own, same⟩
    · rw [readField_unknown fun c same => known ⟨c, same⟩] at read
      cases read
  · rintro ⟨c, rfl, x, own, rfl⟩
    rw [readField_key, read_ok.mpr own]
    rfl

theorem readField_fits {name : String} : (∃ t, readField s name v = .ok t) ↔ Fits name v := by
  constructor
  · rintro ⟨t, read⟩
    obtain ⟨c, own, x, denotes, -⟩ := readField_ok.mp read
    exact ⟨c, own, x, denotes⟩
  · rintro ⟨c, own, x, denotes⟩
    exact ⟨s.give c x, readField_ok.mpr ⟨c, own, x, denotes, rfl⟩⟩

variable {entries own : Toml.Entries} {name : String}

theorem fold_fits : (∃ t, entries.foldlM (fun s e => readField s e.1 e.2) s = .ok t) ↔
    ∀ e ∈ entries, Fits e.1 e.2 := by
  induction entries generalizing s with
  | nil => simp [pure, Except.pure]
  | cons e rest ih =>
    rw [List.forall_mem_cons, List.foldlM_cons]
    constructor
    · rintro ⟨t, read⟩
      obtain ⟨u, first, later⟩ := bind_ok_iff.mp read
      exact ⟨readField_fits.mp ⟨u, first⟩, ih.mp ⟨t, later⟩⟩
    · rintro ⟨first, later⟩
      obtain ⟨u, first⟩ := readField_fits.mpr first
      obtain ⟨t, later⟩ := ih.mpr later
      exact ⟨t, bind_ok_iff.mpr ⟨u, first, later⟩⟩

def Over (entries : Toml.Entries) (s t : Settings) : Prop :=
  ∀ c : Choice, match Toml.Entries.get? entries c.key with
    | none => t.given? c = s.given? c
    | some v => ∃ x, c.Denotes v x ∧ t.given? c = some x

theorem fold_over (ascending : OrderedMap.Ascending compare entries)
    (read : entries.foldlM (fun s e => readField s e.1 e.2) s = .ok t) : Over entries s t := by
  induction entries generalizing s with
  | nil =>
    cases read
    exact fun c => rfl
  | cons e rest ih =>
    obtain ⟨k, v⟩ := e
    obtain ⟨above, later⟩ := List.pairwise_cons.mp ascending
    obtain ⟨u, first, read⟩ := bind_ok_iff.mp read
    obtain ⟨c, rfl, x, denotes, rfl⟩ := readField_ok.mp first
    -- The key is not met again further on, so what is under it stays.
    intro d
    have after := ih later read d
    rw [Toml.Entries.get?_cons]
    by_cases same : c = d
    · subst same
      rw [Toml.Entries.get?_of_above above] at after
      rw [if_pos rfl]
      exact ⟨x, denotes, after.trans (given?_give_self x)⟩
    · rw [given?_give same] at after
      rw [if_neg fun keys => same (Choice.key_injective keys)]
      exact after

theorem readEntries_fits : (∃ t, readEntries own = .ok t) ↔ ∀ e ∈ own, Fits e.1 e.2 := fold_fits

theorem readEntries_tells (ascending : OrderedMap.Ascending compare own) (read : readEntries own = .ok t)
    (c : Choice) : Option.Rel c.Denotes (own.get? c.key) (t.given? c) := by
  have told := fold_over ascending read c
  cases found : own.get? c.key with
  | none =>
    rw [found] at told
    rw [show t.given? c = none from told.trans (given?_none c)]
    exact .none
  | some v =>
    rw [found] at told
    obtain ⟨x, denotes, given⟩ := told
    rw [given]
    exact .some denotes

theorem read_of_parse {text : String} {document : Toml.Value}
    (parsed : Toml.parse text = some document) : read text = readDocument document := by
  rw [read, parsed]

end Settings
end TreeDigest
