import TreeDigest.Json.Basic
import TreeDigest.Path.Relative
import TreeDigest.Report.Basic
namespace TreeDigest

def Digest.hex (d : Digest) : String := String.ofList (d.bytes.flatMap (Text.hexByte false))

namespace Report

def line (root : Path) (entry : Path × Digest) : String :=
  entry.2.hex ++ "  " ++ entry.1.displayUnder root ++ "\n"

def lines (r : Report) (root : Path) : String := String.join (r.digests.map (line root))

-- Entries by displayed path. Of several with one displayed path the last one counts.
def shown (root : Path) (entries : List (Path × String)) : List (String × String) :=
  OrderedMap.ofList compare (entries.map fun e => (e.1.displayUnder root, e.2))

def optional (key : String) (root : Path) (entries : Complaints) : List (String × Json) :=
  if entries.isEmpty then [] else [(key, .ofMap (shown root entries))]

def json (r : Report) (root : Path) : Json :=
  .object <|
    [("root", .text root.display),
      ("files", .ofMap (shown root (r.digests.map fun e => (e.1, e.2.hex))))] ++
    optional "failures" root r.failures ++ optional "skipped" root r.skipped

def jsonText (r : Report) (root : Path) : String := (r.json root).pretty

end Report
end TreeDigest
