import Mathlib.Data.List.Permutation
import TreeDigest.Proofs.Settings.Section
import TreeDigest.Proofs.Toml.Parser
import TreeDigest.Proofs.Toml.Range
namespace TreeDigest.Settings

def section? : Toml.Value → Option Toml.Entries
  | .table _ entries =>
    match Toml.Entries.get? entries "settings" with
    | none => some []
    | some (.table _ own) => some own
    | some _ => none
  | _ => none

def beside : Toml.Value → Toml.Entries
  | .table _ entries => entries.filter (·.1 ≠ "settings")
  | _ => []

def Bounded (document : Toml.Value) : Prop := ∀ e ∈ beside document, e.2.Holdable

variable {s t : Settings} {v document also : Toml.Value} {entries own : Toml.Entries} {text : String}

theorem section?_cases (table : section? document = some own) : ∃ origin entries,
    document = .table origin entries ∧ (Toml.Entries.get? entries "settings" = none ∧ own = [] ∨
      ∃ o, Toml.Entries.get? entries "settings" = some (.table o own)) := by
  cases document with
  | table origin entries =>
    refine ⟨origin, entries, rfl, ?_⟩
    simp only [section?] at table
    cases found : Toml.Entries.get? entries "settings" with
    | none =>
      rw [found] at table
      cases table
      exact .inl ⟨rfl, rfl⟩
    | some v =>
      rw [found] at table
      cases v with
      | table o es =>
        cases table
        exact .inr ⟨o, rfl⟩
      | _ => cases table
  | _ => cases table

theorem section?_ascending (ordered : document.Ordered) (table : section? document = some own) :
    OrderedMap.Ascending compare own := by
  obtain ⟨origin, entries, rfl, ⟨-, rfl⟩ | ⟨o, found⟩⟩ := section?_cases table
  · exact .nil
  · exact (ordered.get? _ found).entries_ascending

theorem beside_ascending (ordered : document.Ordered) : OrderedMap.Ascending compare (beside document) := by
  cases document with
  | table origin entries => exact ordered.entries_ascending.filter _
  | _ => exact .nil

def readAll (entries : Toml.Entries) (s : Settings) : Except SettingsError Settings :=
  entries.foldlM (fun s e => readEntry s e.1 e.2) s

theorem readEntry_beside {e : String × Toml.Value} (other : e.1 ≠ "settings") :
    readEntry s e.1 e.2 = .ok t ↔ e.2.Holdable ∧ s = t := by
  rw [readEntry, if_neg other, ← Toml.overflow?_eq_none]
  cases e.2.overflow? <;> simp

theorem readAll_cons {e : String × Toml.Value} :
    readAll (e :: entries) s = readEntry s e.1 e.2 >>= readAll entries := List.foldlM_cons

theorem readAll_ok (apart : ∀ e ∈ entries, e.1 ≠ "settings") :
    readAll entries s = .ok t ↔ (∀ e ∈ entries, e.2.Holdable) ∧ s = t := by
  induction entries with
  | nil => simp [readAll, pure, Except.pure]
  | cons e rest ih =>
    obtain ⟨other, apart⟩ := List.forall_mem_cons.mp apart
    rw [readAll_cons, bind_ok_iff, List.forall_mem_cons]
    constructor
    · rintro ⟨u, first, later⟩
      obtain ⟨own, rfl⟩ := (readEntry_beside other).mp first
      obtain ⟨holdable, same⟩ := (ih apart).mp later
      exact ⟨⟨own, holdable⟩, same⟩
    · rintro ⟨⟨own, holdable⟩, rfl⟩
      exact ⟨s, (readEntry_beside other).mpr ⟨own, rfl⟩, (ih apart).mpr ⟨holdable, rfl⟩⟩

theorem readAll_append {front back : Toml.Entries} :
    readAll (front ++ back) s = readAll front s >>= readAll back := List.foldlM_append

theorem beside_apart {d : Toml.Value} : ∀ e ∈ beside d, e.1 ≠ "settings" := by
  cases d with
  | table origin entries => exact fun e own => by simpa using (List.mem_filter.mp own).2
  | _ => nofun

theorem readDocument_placed (apart : ∀ e ∈ entries, e.1 ≠ "settings") :
    ∃ front back, entries = front ++ back ∧ ∀ document own, document.Ordered → section? document = some own →
      beside document = entries →
      readDocument document = readAll front {} >>= fun _ => readEntries own >>= readAll back := by
  obtain ⟨front, back, rfl, placed⟩ := Toml.Entries.put_placed apart
  refine ⟨front, back, rfl, fun document own ordered table same => ?_⟩
  have unchanged : (readAll front {} >>= readAll back) = readAll front {} >>= fun _ => readAll back {} := by
    cases first : readAll front {} with
    | error e => rfl
    | ok t =>
      obtain rfl := ((readAll_ok fun e own => apart e (List.mem_append_left _ own)).mp first).2
      rfl
  obtain ⟨origin, entries, rfl, ⟨found, rfl⟩ | ⟨o, found⟩⟩ := section?_cases table
  · have all : beside (.table origin entries) = entries :=
      List.filter_eq_self.mpr fun e own => by simpa using Toml.Entries.get?_eq_none.mp found e own
    calc
      readAll entries {} = readAll front {} >>= readAll back := by rw [← all, same, readAll_append]
      _ = readAll front {} >>= fun _ => readEntries [] >>= readAll back := unchanged
  · have all : Toml.Entries.put (front ++ back) "settings" (.table o own) = entries := by
      rw [← same]
      exact Toml.Entries.put_filter ordered.entries_ascending found
    calc
      readAll entries {} = readAll front {} >>= fun s => readSection (.table o own) >>= readAll back := by
        rw [← all, placed, readAll_append]
        rfl
      _ = readAll front {} >>= fun _ => readEntries own >>= readAll back := rfl

theorem readDocument_alike (ordered : document.Ordered) (ordered' : also.Ordered)
    (table : section? document = some own) (same : section? also = some own)
    (alike : beside also = beside document) : readDocument also = readDocument document := by
  obtain ⟨front, back, -, placed⟩ := readDocument_placed (beside_apart (d := document))
  rw [placed document own ordered table rfl, placed also own ordered' same alike]

theorem readDocument_section (ordered : document.Ordered) (bounded : Bounded document)
    (table : section? document = some own) : readDocument document = readEntries own := by
  obtain ⟨front, back, split, placed⟩ := readDocument_placed (beside_apart (d := document))
  have keeps {part : Toml.Entries} (inside : part ⊆ beside document) (s : Settings) : readAll part s = .ok s :=
    (readAll_ok fun e own => beside_apart e (inside own)).mpr ⟨fun e own => bounded e (inside own), rfl⟩
  rw [placed document own ordered table rfl, keeps (split ▸ List.subset_append_left front back)]
  calc
    (readEntries own >>= readAll back) = readEntries own >>= pure :=
      bind_congr fun s => keeps (split ▸ List.subset_append_right front back) s
    _ = readEntries own := bind_pure _

theorem readDocument_ok (ordered : document.Ordered) (table : section? document = some own) :
    readDocument document = .ok t ↔ Bounded document ∧ readEntries own = .ok t := by
  refine ⟨fun accepted => ?_, fun ⟨bounded, read⟩ => (readDocument_section ordered bounded table).trans read⟩
  obtain ⟨front, back, split, placed⟩ := readDocument_placed (beside_apart (d := document))
  have apart := split ▸ beside_apart (d := document)
  obtain ⟨ahead, behind⟩ := List.forall_mem_append.mp apart
  rw [placed document own ordered table rfl] at accepted
  obtain ⟨u, before, accepted⟩ := bind_ok_iff.mp accepted
  obtain ⟨t, read, after⟩ := bind_ok_iff.mp accepted
  obtain ⟨holdable, -⟩ := (readAll_ok ahead).mp before
  obtain ⟨holdable', rfl⟩ := (readAll_ok behind).mp after
  refine ⟨?_, read⟩
  rw [Bounded, split]
  exact List.forall_mem_append.mpr ⟨holdable, holdable'⟩

-- A text whose section is a table is accepted exactly if each of its entries fits and no number beside it
-- is beyond every range. Then each setting is what stands under its key. The outcome, also what the text is
-- refused for, depends on what the section holds and on nothing else but such numbers. Neither does it
-- depend on the order of the lines under a header.
theorem read_exact (parsed : Toml.parse text = some document) (table : section? document = some own) :
    ((∃ s, read text = .ok s) ↔ (∀ e ∈ own, Fits e.1 e.2) ∧ Bounded document) ∧
      (∀ s, read text = .ok s → ∀ c : Choice, Option.Rel c.Denotes (own.get? c.key) (s.given? c)) ∧
      (∀ other also own', Toml.parse other = some also → section? also = some own' → own'.Perm own →
        (beside also).Perm (beside document) ∨ Bounded document ∧ Bounded also → read other = read text) ∧
      ∀ other front back (pairs others : List (List String × Toml.Value)),
        Toml.lines text = some (front ++ pairs.map .ofPair ++ back) →
        Toml.lines other = some (front ++ others.map .ofPair ++ back) → pairs.Perm others →
        read other = read text := by
  have ordered := Toml.parse_ordered parsed
  have ascending := section?_ascending ordered table
  have accepted (s : Settings) : read text = .ok s ↔ Bounded document ∧ readEntries own = .ok s := by
    rw [read_of_parse parsed, readDocument_ok ordered table]
  refine ⟨?_, fun s read => readEntries_tells ascending ((accepted s).mp read).2, ?_, ?_⟩
  · simp only [accepted, exists_and_left, readEntries_fits, And.comm]
  · intro other also own' parsed' table' perm outside
    have ordered' := Toml.parse_ordered parsed'
    obtain rfl : own' = own := Toml.Entries.eq_of_perm (section?_ascending ordered' table') ascending perm
    rcases outside with alike | ⟨bounded, bounded'⟩
    · have alike := Toml.Entries.eq_of_perm (beside_ascending ordered') (beside_ascending ordered) alike
      rw [read_of_parse parsed', read_of_parse parsed,
        readDocument_alike ordered ordered' table table' alike]
    · rw [read_of_parse parsed', read_of_parse parsed, readDocument_section ordered bounded table,
        readDocument_section ordered' bounded' table']
  · intro other front back pairs others here there perm
    have same := Toml.parse_reordered here there perm
    rw [read, read, same]

def listedText : String :=
  "x = -1\n[settings]\nworkers = 18446744073709551615\nexclude = ['*.log']\njson = true\n[z]\n"

def shuffledText : String :=
  "x = -1\n[settings]\njson = true\nexclude = ['*.log']\nworkers = 18446744073709551615\n[z]\n"

def listed : List (List String × Toml.Value) :=
  [(["workers"], .integer 18446744073709551615), (["exclude"], .array false [.string "*.log"]),
    (["json"], .boolean true)]

def listedSection : Toml.Entries :=
  [("exclude", .array false [.string "*.log"]), ("json", .boolean true),
    ("workers", .integer 18446744073709551615)]

def listedDocument : Toml.Value :=
  .table .header [("settings", .table .header listedSection), ("x", .integer (-1)), ("z", .table .header [])]

def listedSettings : Settings where
  workers := some 18446744073709551615
  exclude := some ["*.log"]
  json := some true

theorem lines_listed : Toml.lines listedText =
    some ([.pair ["x"] (.integer (-1)), .header ["settings"]] ++ listed.map .ofPair ++
      [.header ["z"]]) := by cbv

theorem lines_shuffled : Toml.lines shuffledText =
    some ([.pair ["x"] (.integer (-1)), .header ["settings"]] ++ listed.reverse.map .ofPair ++
      [.header ["z"]]) := by cbv

theorem read_exact_listed : (∀ e ∈ listedSection, Fits e.1 e.2) ∧ Bounded listedDocument ∧
    read shuffledText = .ok listedSettings := by
  have parsed : Toml.parse listedText = some listedDocument := by cbv
  have accepted : read listedText = .ok listedSettings := (read_of_parse parsed).trans rfl
  have own : section? listedDocument = some listedSection := rfl
  obtain ⟨fits, -, -, reordered⟩ := read_exact parsed own
  have same := reordered _ _ _ _ _ lines_listed lines_shuffled (List.reverse_perm listed).symm
  exact ⟨(fits.mp ⟨_, accepted⟩).1, (fits.mp ⟨_, accepted⟩).2, same.trans accepted⟩

-- A number that no integer can hold is refused wherever it stands, also where nobody asks for it. So are
-- brackets beyond the greatest depth.
def beyondText : String := "x = 340282366920938463463374607431768211456\n[settings]\nworkers = 3"

def beyondDocument : Toml.Value :=
  .table .header [("settings", .table .header [("workers", .integer 3)]),
    ("x", .integer 340282366920938463463374607431768211456)]

def deepText : String :=
  String.ofList ('x' :: '=' ::
    Toml.opening (Toml.deepest + 1) (List.replicate (Toml.deepest + 1) ']'))

theorem read_beyond :
    (∃ own, Toml.parse beyondText = some beyondDocument ∧ section? beyondDocument = some own ∧
      (∀ e ∈ own, Fits e.1 e.2) ∧ read beyondText = .error (.overflow .integer)) ∧
    read deepText = .error .malformed := by
  have parsed : Toml.parse beyondText = some beyondDocument := by cbv
  refine ⟨⟨[("workers", .integer 3)], parsed, rfl, ?_, (read_of_parse parsed).trans rfl⟩, ?_⟩
  · exact List.forall_mem_singleton.mpr ⟨.workers, rfl, (3 : UInt64), rfl⟩
  · rw [read, deepText, Toml.parse_opening]

end TreeDigest.Settings
