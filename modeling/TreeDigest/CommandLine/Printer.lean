import TreeDigest.CommandLine.Basic
namespace TreeDigest

def Target.long? (t : Target) : Option String :=
  (CommandLine.declarations.find? fun d => d.target? = some t).map (·.long)

namespace CommandLine

def written (t : Target) (value : String) : Bytes :=
  Utf8.encode ("--" ++ t.long?.getD "" ++ "=" ++ value)

def writtenWord (t : Target) (n : Option UInt64) : List Bytes :=
  (n.map fun n => written t (toString n.toNat)).toList

def writtenFlag (a : Arguments) (f : Flag) : List Bytes :=
  ((a.flag? f).map fun b => written (.flag f) (toString b)).toList

def flags : List Flag := [.followLinks, .parallelWalk, .keepGoing, .skipUnreadable, .json, .verbose]

-- Every option with its value attached, so that none is taken for another.
def options (a : Arguments) : List Bytes :=
  writtenWord .workers a.workers ++ writtenWord .timeout a.timeoutSeconds ++
    a.exclude.map (written .exclude) ++ flags.flatMap (writtenFlag a)

def print (a : Arguments) : List Bytes := options a ++ [Utf8.encode "--", a.directory.bytes]

end CommandLine
end TreeDigest
