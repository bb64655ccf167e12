import TreeDigest.Toml.Value
namespace TreeDigest.Toml

inductive Statement where
  | pair (path : List String) (value : Value)
  | header (path : List String)
  | element (path : List String)
  deriving Inhabited

-- Changes the table at the end of a path, and creates the ones that are missing on the way. A path
-- goes through the last element of a growing array. It does not go into braces, and a dotted key does
-- not go into a table that has its own header.
def edit (dotted : Bool) (change : Origin → Entries → Option Value) :
    List String → Value → Option Value
  | [], .table origin entries => change origin entries
  | k :: path, .table origin entries => do
    let below ←
      match Entries.get? entries k with
      | none => edit dotted change path (.table (if dotted then .dotted else .implied) [])
      | some (.array true items) =>
        (edit dotted change path (items.getLastD .moment)).map fun v =>
          .array true (items.dropLast ++ [v])
      | some (.table o es) =>
        if o = .inline ∨ (dotted ∧ o = .header) then none else edit dotted change path (.table o es)
      | some _ => none
    return .table origin (Entries.put entries k below)
  | _, _ => none

def putPair (dotted : Bool) (key : String) (value : Value) (origin : Origin) (entries : Entries) :
    Option Value :=
  if (origin = .dotted) ≠ dotted ∨ (Entries.get? entries key).isSome then none
  else some (.table origin (Entries.put entries key value))

def addPair (path : List String) (value : Value) (table : Value) : Option Value := do
  let key ← path.getLast?
  edit true (putPair (path.length ≠ 1) key value) path.dropLast table

-- A table gets its header once, at the latest after tables below it.
def openTable (key : String) (origin : Origin) (entries : Entries) : Option Value :=
  match Entries.get? entries key with
  | none => some (.table origin (Entries.put entries key (.table .header [])))
  | some (.table .implied below) => some (.table origin (Entries.put entries key (.table .header below)))
  | some _ => none

def openElement (key : String) (origin : Origin) (entries : Entries) : Option Value :=
  match Entries.get? entries key with
  | none => some (.table origin (Entries.put entries key (.array true [.table .header []])))
  | some (.array true items) =>
    some (.table origin (Entries.put entries key (.array true (items ++ [.table .header []]))))
  | some _ => none

structure Draft where
  root : Value := .table .header []
  current : List String := []

def Draft.add (d : Draft) : Statement → Option Draft
  | .pair path value => do
    let addHere (origin : Origin) (entries : Entries) := addPair path value (.table origin entries)
    return { d with root := ← edit false addHere d.current d.root }
  | .header path => do
    let key ← path.getLast?
    return ⟨← edit false (openTable key) path.dropLast d.root, path⟩
  | .element path => do
    let key ← path.getLast?
    return ⟨← edit false (openElement key) path.dropLast d.root, path⟩

def build (statements : List Statement) : Option Value :=
  (statements.foldlM Draft.add {}).map (·.root)

def buildInline (pairs : List (List String × Value)) : Option Value := do
  match ← pairs.foldlM (fun t p => addPair p.1 p.2 t) (.table .header []) with
  | .table _ entries => return .table .inline entries
  | _ => none

end TreeDigest.Toml
