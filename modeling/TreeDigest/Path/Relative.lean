import TreeDigest.Path.Basic
namespace TreeDigest.Path

def dropComponents? : List Bytes → List Component → Option (List Bytes)
  | body, [] => some body
  | [], _ :: _ => none
  | segment :: body, c :: rest =>
    if isTrivial segment then dropComponents? body (c :: rest)
    else if bodyComponent segment = c then dropComponents? body rest
    else none

-- What follows `base` in `p`, as written there, without separators and dots at either end.
-- Nothing is cut from the front for an empty base.
def stripPrefix? (p base : Path) : Option Path :=
  let q := p.parts
  match base.components with
  | [] => some q.trimEnd.path
  | first :: rest =>
    let body :=
      match q.anchor.components with
      | [] => dropComponents? q.body (first :: rest)
      | anchor :: _ => if anchor = first then dropComponents? q.body rest else none
    body.map fun left => Parts.path ⟨.none, Path.trimEnd (trimStart left)⟩

def slashText (p : Path) : String :=
  String.ofList ((Utf8.lossyChars p.bytes).map fun c => if c = '\\' then '/' else c)

theorem slashText_ascii {p : Path} (plain : p.bytes.all (· < 0x80)) :
    p.slashText = String.ofList ((Utf8.ascii p.bytes).map fun c => if c = '\\' then '/' else c) := by
  rw [slashText, Utf8.lossyChars_ascii plain]

def displayUnder (p root : Path) : String :=
  match p.stripPrefix? root with
  | some rel => if rel.isEmpty then p.slashText else rel.slashText
  | none => p.slashText

end TreeDigest.Path
