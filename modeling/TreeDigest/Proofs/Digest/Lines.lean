import TreeDigest.Proofs.Digest.SampleReport
import TreeDigest.Proofs.Report.Shown
namespace TreeDigest

namespace Digest
variable {d e : Digest}

def digits : List Char := ['0', '1', '2', '3', '4', '5', '6', '7', '8', '9', 'a', 'b', 'c', 'd', 'e', 'f']

theorem hexByte_digits {b : UInt8} : ∀ c ∈ Text.hexByte false b, c ∈ digits := by
  have digit : ∀ n < 16, Text.hexDigit false n ∈ digits := by decide
  have bound := b.toNat_lt
  intro c member
  rcases List.mem_pair.mp member with rfl | rfl
  · exact digit _ (by omega)
  · exact digit _ (by omega)

theorem hexByte_injective {a b : UInt8} (same : Text.hexByte false a = Text.hexByte false b) : a = b := by
  have digit {m n : Nat} (small : m < 16) (also : n < 16)
      (same : Text.hexDigit false m = Text.hexDigit false n) : m = n := by
    have read := congrArg Json.hexValue? same
    rw [Json.hexValue?_hexDigit small, Json.hexValue?_hexDigit also] at read
    exact Option.some.inj read
  have first := a.toNat_lt
  have second := b.toNat_lt
  obtain ⟨high, rest⟩ := List.cons.inj same
  have upper := digit (by omega) (by omega) high
  have lower := digit (by omega) (by omega) (List.cons.inj rest).1
  apply UInt8.toNat_inj.mp
  omega

theorem hexBytes_injective {as bs : Bytes}
    (same : as.flatMap (Text.hexByte false) = bs.flatMap (Text.hexByte false)) : as = bs := by
  induction as generalizing bs with
  | nil =>
    cases bs with
    | nil => rfl
    | cons b bs => cases same
  | cons a as ih =>
    cases bs with
    | nil => cases same
    | cons b bs =>
      rw [List.flatMap_cons, List.flatMap_cons] at same
      obtain ⟨first, rest⟩ := List.append_inj same rfl
      rw [hexByte_injective first, ih rest]

theorem hex_toList : d.hex.toList = d.bytes.flatMap (Text.hexByte false) := String.toList_ofList

theorem hex_digits : ∀ c ∈ d.hex.toList, c ∈ digits := by
  intro c member
  rw [hex_toList] at member
  obtain ⟨b, -, own⟩ := List.mem_flatMap.mp member
  exact hexByte_digits c own

theorem hex_length : d.hex.toList.length = 64 := by
  have two : d.bytes.map (fun b => (Text.hexByte false b).length) = List.replicate 32 2 := by
    rw [← d.length_eq, ← List.map_const']
    rfl
  rw [hex_toList, List.length_flatMap, two]
  rfl

theorem hex_injective (same : d.hex = e.hex) : d = e := by
  have bytes : d.bytes = e.bytes := by
    apply hexBytes_injective
    rw [← hex_toList, ← hex_toList, same]
  cases d
  cases e
  cases bytes
  rfl

end Digest

section Split
variable {α : Type} [BEq α] [LawfulBEq α] {a : α} {xs : List α} {ls : List (List α)}

theorem not_mem_of_mem_splitOn {l : List α} (member : l ∈ xs.splitOn a) : a ∉ l := by
  induction xs generalizing l with
  | nil =>
    cases List.mem_singleton.mp member
    exact List.not_mem_nil
  | cons x xs ih =>
    rw [List.splitOn_cons_eq_if_modifyHead] at member
    split at member
    · rcases List.mem_cons.mp member with rfl | later
      · exact List.not_mem_nil
      · exact ih later
    · rename_i other
      obtain ⟨first, rest, pieces⟩ := List.exists_cons_of_ne_nil (List.splitOn_ne_nil a xs)
      rw [pieces] at ih member
      rcases List.mem_cons.mp member with rfl | later
      · apply List.not_mem_cons_of_ne_of_not_mem
        · intro same
          exact other (beq_iff_eq.mpr same.symm)
        · exact ih (List.mem_cons_self ..)
      · exact ih (List.mem_cons_of_mem _ later)

theorem splitOn_lines : (ls.flatMap (· ++ [a])).splitOn a = ls.flatMap (·.splitOn a) ++ [[]] := by
  induction ls with
  | nil => rfl
  | cons l ls ih =>
    rw [List.flatMap_cons, List.append_assoc, List.singleton_append, List.splitOn_append_cons_self, ih,
      List.flatMap_cons, List.append_assoc]

theorem splitOn_lines_iff : (ls.flatMap (· ++ [a])).splitOn a = ls ++ [[]] ↔ ∀ l ∈ ls, a ∉ l := by
  rw [splitOn_lines, List.append_left_inj]
  constructor
  · intro whole l member
    rw [← whole] at member
    obtain ⟨_, _, piece⟩ := List.mem_flatMap.mp member
    exact not_mem_of_mem_splitOn piece
  · intro free
    induction ls with
    | nil => rfl
    | cons l ls ih =>
      obtain ⟨own, later⟩ := List.forall_mem_cons.mp free
      rw [List.flatMap_cons, List.splitOn_eq_singleton own, ih later, List.singleton_append]

end Split

namespace Report
variable {r s : Report} {root other : Path}

def listed (r : Report) (root : Path) : List (Digest × String) :=
  r.digests.map fun e => (e.2, e.1.displayUnder root)

def row (e : Digest × String) : List Char := e.1.hex.toList ++ ' ' :: ' ' :: e.2.toList

def Unbroken (r : Report) (root : Path) : Prop :=
  ∀ e ∈ r.digests, Path.newline ∉ (e.1.shownUnder root).bytes

theorem row_injective (d e : Digest × String) (same : row d = row e) : d = e := by
  obtain ⟨hex, rest⟩ := List.append_inj same (Digest.hex_length.trans Digest.hex_length.symm)
  have name := (List.cons.inj (List.cons.inj rest).2).2
  exact Prod.ext (Digest.hex_injective (String.toList_inj.mp hex)) (String.toList_inj.mp name)

theorem newline_mem_row {e : Path × Digest} :
    '\n' ∈ row (e.2, e.1.displayUnder root) ↔ Path.newline ∈ (e.1.shownUnder root).bytes := by
  have none : '\n' ∉ e.2.hex.toList := by
    intro member
    exact absurd (Digest.hex_digits _ member) (by decide)
  rw [Path.displayUnder_eq, ← Path.newline_mem_slashText]
  simp [row, none]

theorem lines_rows : (r.lines root).toList = ((r.listed root).map row).flatMap (· ++ ['\n']) := by
  rw [lines, String.toList_join, listed, List.map_map, List.flatMap_map, List.flatMap_map]
  refine List.flatMap_congr fun e _ => ?_
  simp [line, row, String.toList_append]

theorem lines_split_iff :
    (r.lines root).toList.splitOn '\n' = (r.listed root).map row ++ [[]] ↔ r.Unbroken root := by
  rw [lines_rows, splitOn_lines_iff, listed, List.map_map, List.forall_mem_map]
  exact forall₂_congr fun e _ => not_congr newline_mem_row

theorem listed_of_lines (one : r.Unbroken root) (also : s.Unbroken other)
    (same : r.lines root = s.lines other) : r.listed root = s.listed other := by
  have left := lines_split_iff.mpr one
  have right := lines_split_iff.mpr also
  rw [same, right, List.append_left_inj] at left
  exact ((List.map_inj_right row_injective).mp left).symm

-- The lines can be read where no newline is shown: each is sixty-four digits, two blanks and what is shown
-- of the path, and they are those of one list alone. With a newline there are more lines than digests.
theorem lines_decodable (r : Report) (root : Path) :
    ((r.lines root).toList.splitOn '\n' = (r.listed root).map row ++ [[]] ↔ r.Unbroken root) ∧
    (∀ e ∈ r.listed root, e.1.hex.toList.length = 64 ∧ ∀ c ∈ e.1.hex.toList, c ∈ Digest.digits) ∧
    ∀ (s : Report) (other : Path), r.Unbroken root → s.Unbroken other → r.lines root = s.lines other →
      r.listed root = s.listed other :=
  ⟨lines_split_iff, fun _ _ => ⟨Digest.hex_length, Digest.hex_digits⟩, fun _ _ => listed_of_lines⟩

end Report

namespace Digesting
open TreeWalk
variable {s : Sample} {d : Digest}

theorem Sample.listed : s.report.listed fileWalk.root =
    s.relative.map fun e => (hashContent e.2, e.1.slashText) := by
  rw [← shownUnder_located]
  simp only [Report.listed, report, List.map_map, Function.comp_def, Path.displayUnder_eq]

theorem Sample.unbroken : s.report.Unbroken fileWalk.root ↔ ∀ e ∈ s.relative, Path.newline ∉ e.1.bytes := by
  rw [← shownUnder_located, List.forall_mem_map]
  exact List.forall_mem_map

def pair : Sample where
  inner := []
  outer := [(ab, [120]), (lettered [99] (by decide), [121])]
  inside := by decide
  beside := by decide
  beyond := by decide

theorem pair_unbroken : pair.report.Unbroken fileWalk.root := Sample.unbroken.mpr (by decide)

theorem pair_listed : pair.report.listed fileWalk.root =
    [(hashContent [120], "ab"), (hashContent [121], "ac")] := by
  have first : Path.slashText ⟨[97, 98]⟩ = "ab" := Path.slashText_ascii rfl
  have second : Path.slashText ⟨[97, 99]⟩ = "ac" := Path.slashText_ascii rfl
  rw [Sample.listed]
  change [(hashContent [120], Path.slashText ⟨[97, 98]⟩), (hashContent [121], Path.slashText ⟨[97, 99]⟩)] = _
  rw [first, second]

theorem lines_decodable_pair : pair.report.Unbroken fileWalk.root ∧
    (pair.report.lines fileWalk.root).toList.splitOn '\n' =
      [Report.row (hashContent [120], "ab"), Report.row (hashContent [121], "ac"), []] := by
  refine ⟨pair_unbroken, ?_⟩
  rw [(Report.lines_decodable _ _).1.mpr pair_unbroken, pair_listed]
  rfl

def hexBytes (d : Digest) : Bytes := d.hex.toList.map fun c => c.toNat.toUInt8

def Ordinary (b : UInt8) : Prop := b ≠ Path.slash ∧ b ≠ 0 ∧ b < 0x80

theorem hexBytes_ordinary : ∀ b ∈ hexBytes d, Ordinary b := by
  have digit : ∀ c ∈ Digest.digits, Ordinary c.toNat.toUInt8 := by simp [Digest.digits, Ordinary, Path.slash]
  intro b member
  obtain ⟨c, own, rfl⟩ := List.mem_map.mp member
  exact digit c (Digest.hex_digits c own)

theorem hexBytes_length : (hexBytes d).length = 64 := List.length_map .. |>.trans Digest.hex_length

theorem hexBytes_chars :
    (Utf8.ascii (hexBytes d)).map (fun c => if c = '\\' then '/' else c) = d.hex.toList := by
  have digit : ∀ c ∈ Digest.digits,
      (if Char.ofNat c.toNat.toUInt8.toNat = '\\' then '/' else Char.ofNat c.toNat.toUInt8.toNat) = c := by
    simp [Digest.digits]
  rw [Utf8.ascii, hexBytes, List.map_map, List.map_map]
  refine (List.map_congr_left fun c own => ?_).trans (List.map_id _)
  exact digit c (Digest.hex_digits c own)

-- A name that goes over the end of its line, as if the line of another file followed.
def splicedRest (d : Digest) : Bytes := [98, 10] ++ (hexBytes d ++ [32, 32, 97, 99])

theorem splicedRest_ordinary : ∀ b ∈ splicedRest d, Ordinary b := by
  have before : ∀ b ∈ [98, 10], Ordinary b := by simp [Ordinary, Path.slash]
  have after : ∀ b ∈ [32, 32, 97, 99], Ordinary b := by simp [Ordinary, Path.slash]
  exact List.forall_mem_append.mpr ⟨before, List.forall_mem_append.mpr ⟨hexBytes_ordinary, after⟩⟩

def spliced (d : Digest) : Name := lettered (splicedRest d)
  ⟨fun member => (splicedRest_ordinary _ member).1 rfl, fun member => (splicedRest_ordinary _ member).2.1 rfl⟩

theorem spliced_shown : (spliced d).path.slashText =
    String.ofList ('a' :: 'b' :: '\n' :: (d.hex.toList ++ [' ', ' ', 'a', 'c'])) := by
  have small : ∀ b ∈ splicedRest d, b < 0x80 := fun b member => (splicedRest_ordinary b member).2.2
  have plain : (spliced d).path.bytes.all (· < 0x80) :=
    List.all_eq_true.mpr (List.forall_mem_cons.mpr ⟨rfl, fun b member => decide_eq_true (small b member)⟩)
  rw [Path.slashText_ascii plain, ← hexBytes_chars]
  change String.ofList ((Utf8.ascii (97 :: ([98, 10] ++ (hexBytes d ++ [32, 32, 97, 99])))).map _) = _
  simp only [Utf8.ascii, List.map_cons, List.map_append]
  rfl

def splicedFile (d : Digest) : Sample where
  inner := []
  outer := [(spliced d, [120])]
  inside := by decide
  beside := by
    refine ⟨List.pairwise_singleton _ _, List.forall_mem_singleton.mpr rfl, List.forall_mem_singleton.mpr ?_⟩
    simp [spliced, lettered, splicedRest, hexBytes_length]
  beyond := List.forall_mem_singleton.mpr rfl

theorem spliced_listed : (splicedFile d).report.listed fileWalk.root =
    [(hashContent [120], (spliced d).path.slashText)] := Sample.listed

theorem lines_spliced : (splicedFile (hashContent [121])).report.lines fileWalk.root =
    pair.report.lines fileWalk.root := by
  apply String.toList_inj.mp
  rw [Report.lines_rows, Report.lines_rows, spliced_listed, pair_listed, spliced_shown]
  simp [Report.row]

theorem lines_merge : ∃ one two : Report,
    Ends (splicedFile (hashContent [121])).tree fileWalk.root (lenient {}) none (.ok one) ∧
    Ends pair.tree fileWalk.root (lenient {}) none (.ok two) ∧
    one.lines fileWalk.root = two.lines fileWalk.root ∧
    one.digests.length = 1 ∧ two.digests.length = 2 ∧
    (one.lines fileWalk.root).toList.splitOn '\n' =
      [Report.row (hashContent [120], "ab"), Report.row (hashContent [121], "ac"), []] := by
  refine ⟨_, _, Sample.ends _, pair.ends, lines_spliced, rfl, rfl, ?_⟩
  rw [lines_spliced, Report.lines_split_iff.mpr pair_unbroken, pair_listed]
  rfl

end Digesting
end TreeDigest
