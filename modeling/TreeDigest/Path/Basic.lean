import TreeDigest.Text.Utf8
namespace TreeDigest

-- A path as it was written. Any bytes will do; two spellings may name the same components.
structure Path where
  bytes : Bytes
  deriving DecidableEq, Repr, Inhabited

namespace Path

def slash : UInt8 := 47
def dot : UInt8 := 46

def ofString (s : String) : Path := ⟨Utf8.encode s⟩

inductive Component where
  | root
  | current
  | parent
  | normal (name : Bytes)
  deriving DecidableEq, Repr

def segments : Bytes → List Bytes
  | [] => [[]]
  | b :: r =>
    if b = slash then [] :: segments r
    else
      match segments r with
      | s :: rest => (b :: s) :: rest
      | [] => [[b]]

def joinSegments : List Bytes → Bytes
  | [] => []
  | [s] => s
  | s :: t :: rest => s ++ slash :: joinSegments (t :: rest)

-- What a path starts with, apart from names. A dot counts only as the first segment.
inductive Anchor where
  | root
  | current
  | none
  deriving DecidableEq, Repr

structure Parts where
  anchor : Anchor
  body : List Bytes

def parts (p : Path) : Parts :=
  match segments p.bytes with
  | [] :: [] => ⟨.none, []⟩
  | [] :: rest => ⟨.root, rest⟩
  | first :: rest => if first = [dot] then ⟨.current, rest⟩ else ⟨.none, first :: rest⟩
  | [] => ⟨.none, []⟩

def isTrivial (segment : Bytes) : Bool := segment.isEmpty || segment == [dot]

def bodyComponent (segment : Bytes) : Component :=
  if segment = [dot, dot] then .parent else .normal segment

def Anchor.components : Anchor → List Component
  | .root => [.root]
  | .current => [.current]
  | .none => []

def bodyComponents (body : List Bytes) : List Component :=
  (body.filter (!isTrivial ·)).map bodyComponent

def components (p : Path) : List Component :=
  p.parts.anchor.components ++ bodyComponents p.parts.body

def trimStart (body : List Bytes) : List Bytes := body.dropWhile isTrivial

def trimEnd (body : List Bytes) : List Bytes := (body.reverse.dropWhile isTrivial).reverse

def Parts.path : Parts → Path
  | ⟨.root, body⟩ => ⟨slash :: joinSegments body⟩
  | ⟨.current, []⟩ => ⟨[dot]⟩
  | ⟨.current, body⟩ => ⟨dot :: slash :: joinSegments body⟩
  | ⟨.none, body⟩ => ⟨joinSegments body⟩

def Parts.trimEnd (q : Parts) : Parts := ⟨q.anchor, Path.trimEnd q.body⟩

def isEmpty (p : Path) : Bool := p.bytes.isEmpty

def isAbsolute (p : Path) : Bool := p.bytes.head? == some slash

def fileName? (p : Path) : Option Bytes :=
  match (Path.trimEnd p.parts.body).getLast? with
  | some segment => if segment = [dot, dot] then none else some segment
  | none => none

def parent? (p : Path) : Option Path :=
  match Path.trimEnd p.parts.body with
  | [] => if p.parts.anchor = .current then some ⟨[]⟩ else none
  | body => some (Parts.path ⟨p.parts.anchor, Path.trimEnd body.dropLast⟩)

-- An absolute second path replaces the first. Otherwise exactly one separator stands between them.
def join (p q : Path) : Path :=
  if q.isAbsolute then q
  else if p.bytes.isEmpty then q
  else if p.bytes.getLast? = some slash then ⟨p.bytes ++ q.bytes⟩
  else ⟨p.bytes ++ slash :: q.bytes⟩

def compareLists (cmp : α → α → Ordering) : List α → List α → Ordering
  | [], [] => .eq
  | [], _ :: _ => .lt
  | _ :: _, [] => .gt
  | a :: r, b :: s => (cmp a b).then (compareLists cmp r s)

def compareBytes : Bytes → Bytes → Ordering := compareLists compare

def Component.rank : Component → Nat
  | .root => 0
  | .current => 1
  | .parent => 2
  | .normal _ => 3

def Component.compare : Component → Component → Ordering
  | .normal a, .normal b => compareBytes a b
  | a, b => Ord.compare a.rank b.rank

-- Paths compare component by component, so t/a/b comes before t/a-b.
def compare (p q : Path) : Ordering := compareLists Component.compare p.components q.components

instance : BEq Path := ⟨fun p q => p.components == q.components⟩

def display (p : Path) : String := Utf8.lossy p.bytes

end Path

structure Name where
  bytes : Bytes
  valid : bytes ≠ [] ∧ Path.slash ∉ bytes ∧ 0 ∉ bytes ∧ bytes ≠ [Path.dot] ∧
    bytes ≠ [Path.dot, Path.dot]
  deriving DecidableEq

namespace Name

def ofBytes? (bs : Bytes) : Option Name :=
  if h : bs ≠ [] ∧ Path.slash ∉ bs ∧ 0 ∉ bs ∧ bs ≠ [Path.dot] ∧ bs ≠ [Path.dot, Path.dot] then
    some ⟨bs, h⟩
  else none

def path (n : Name) : Path := ⟨n.bytes⟩

def compare (m n : Name) : Ordering := Path.compareBytes m.bytes n.bytes

end Name
end TreeDigest
