import TreeDigest.OrderedMap
import TreeDigest.Proofs.Json.RoundTrip
import TreeDigest.Proofs.Text.Utf8
import TreeDigest.Report.Printer
namespace TreeDigest.Report
open Std

def displayed (root : Path) (entries : List (Path × String)) : List (String × String) :=
  entries.map fun e => (e.1.displayUnder root, e.2)

-- What a reader learns of these entries. Each text that is shown for one of their paths comes once, with
-- what is said of the last such path, and the texts come in the order of their bytes.
structure Tells (root : Path) (entries : List (Path × String)) (map : List (String × String)) : Prop where
  ordered : map.Pairwise fun a b => Path.compareBytes (Utf8.encode a.1) (Utf8.encode b.1) = .lt
  last (name value : String) : (name, value) ∈ map ↔ OrderedMap.Last name value (displayed root entries)

theorem shown_tells (root : Path) (entries : List (Path × String)) :
    Tells root entries (shown root entries) where
  ordered := OrderedMap.ofList_ascending.imp Utf8.encode_lt
  last _ _ := OrderedMap.mem_ofList

theorem optional_eq (key : String) (root : Path) (entries : Complaints) :
    optional key root entries = if entries = [] then [] else [(key, .ofMap (shown root entries))] := by
  simp only [optional, List.isEmpty_iff]

def Reads (r : Report) (root : Path) (files failures skipped : List (String × String)) : Prop :=
  Json.parse (r.jsonText root) = some (.object
    ([("root", .text root.display), ("files", .ofMap files)] ++
      (if r.failures = [] then [] else [("failures", .ofMap failures)]) ++
      (if r.skipped = [] then [] else [("skipped", .ofMap skipped)])))

theorem reads_shown (r : Report) (root : Path) : r.Reads root
    (shown root (r.digests.map fun e => (e.1, e.2.hex))) (shown root r.failures) (shown root r.skipped) := by
  rw [Reads, jsonText, Json.parse_pretty, json, optional_eq, optional_eq]

-- Whatever bytes the paths are and whatever the complaints say, they can be told from the text.
theorem jsonText_tells (r : Report) (root : Path) : ∃ files failures skipped,
    r.Reads root files failures skipped ∧
      Tells root (r.digests.map fun e => (e.1, e.2.hex)) files ∧
      Tells root r.failures failures ∧ Tells root r.skipped skipped :=
  ⟨_, _, _, r.reads_shown root, shown_tells .., shown_tells .., shown_tells ..⟩

end TreeDigest.Report
