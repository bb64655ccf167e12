import TreeDigest.Blake3.Tree
import TreeDigest.OrderedMap
import TreeDigest.Path.Basic
namespace TreeDigest

abbrev Digests := List (Path × Digest)

abbrev Complaints := List (Path × String)

def Digests.insert (path : Path) (digest : Digest) (digests : Digests) : Digests :=
  OrderedMap.insert Path.compare path digest digests

def Digests.ofList (entries : List (Path × Digest)) : Digests :=
  OrderedMap.ofList Path.compare entries

def Complaints.le (a b : Path × String) : Bool :=
  ((Path.compare a.1 b.1).then (compare a.2 b.2)).isLE

def Complaints.sort (complaints : Complaints) : Complaints := complaints.mergeSort Complaints.le

-- What a digest of a tree finds: the digests, the files that could not be read, and the entries that
-- the walk could not reach.
structure Report where
  digests : Digests := []
  failures : Complaints := []
  skipped : Complaints := []

end TreeDigest
