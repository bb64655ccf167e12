import TreeDigest.Duration
namespace TreeDigest

def programName : String := "treedigest"

def configFileName : String := "." ++ programName ++ ".toml"

def defaultExclude : List String := [configFileName]

def defaultWorkers : Nat := 20

-- A file above this size may be mapped into memory; a smaller one is read piece by piece.
def mapThreshold : Nat := 100 * 1024 * 1024

def readSize : Nat := 1024 * 1024

structure RunOptions where
  workers : Nat := defaultWorkers
  timeout : Option Duration := none
  capacity : Option Nat := none
  deriving DecidableEq, Repr, Inhabited

structure DigestOptions where
  run : RunOptions := {}
  followLinks : Bool := false
  parallelWalk : Bool := false
  exclude : List String := []
  skipUnreadable : Bool := false
  keepGoing : Bool := false
  deriving DecidableEq, Repr, Inhabited

structure Options where
  digest : DigestOptions := {}
  json : Bool := false
  verbose : Bool := false
  deriving DecidableEq, Repr, Inhabited

end TreeDigest
