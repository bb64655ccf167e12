import TreeDigest.Glob
import TreeDigest.Path.Relative
namespace TreeDigest.Exclusion

def junkNames : List String :=
  [".DS_Store", ".AppleDouble", ".LSOverride", "Thumbs.db", "ehthumbs.db", "Desktop.ini",
    "$RECYCLE.BIN", ".directory"]

def junkStarts : List String := ["._", ".Trash-"]

def isJunkName (name : String) : Bool :=
  junkNames.contains name || junkStarts.any fun s => s.toList.isPrefixOf name.toList

def rejectsText (patterns : List String) (text : String) : Bool :=
  patterns.any fun p => globMatch p text

-- A component that is not text is never rejected by itself.
def rejectsComponent (patterns : List String) : Path.Component → Bool
  | .normal bytes =>
    match Utf8.text? bytes with
    | some name => isJunkName name || rejectsText patterns name
    | none => false
  | _ => false

-- Is `path` part of a walk of `root`? Each component below the root is checked by its name, then the
-- whole relative path. The root itself, and what is not below it, is always included.
def includes (path root : Path) (patterns : List String) : Bool :=
  match path.stripPrefix? root with
  | none => true
  | some rel =>
    rel.isEmpty ||
      !(rel.components.any (rejectsComponent patterns) || rejectsText patterns rel.slashText)

end TreeDigest.Exclusion
