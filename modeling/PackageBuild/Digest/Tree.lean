import PackageBuild.Digest.Sha256
/-!
# Digests of named contents

A sequence of names with the digests of their contents has one digest of its own. Every name and
every digest is followed by a zero byte, so no two sequences of names without that byte run into
the same stream.
-/

namespace PackageBuild

/-- The names and digests entered so far. -/
structure TreeDigest where
  /-- The entries in order. -/
  entries : List (String × String) := []
deriving DecidableEq, Repr

namespace TreeDigest

/-- Enter a name with the digest of its content. -/
def add (name digest : String) (d : TreeDigest) : TreeDigest := ⟨d.entries ++ [(name, digest)]⟩

def length (d : TreeDigest) : Nat := d.entries.length

/-- A text followed by a zero byte. -/
def terminated (text : String) : ByteArray := text.toUTF8.push 0

def entryBytes (entry : String × String) : ByteArray :=
  terminated entry.1 ++ terminated entry.2

/-- The bytes of all entries in order. -/
def stream (d : TreeDigest) : ByteArray :=
  d.entries.foldl (fun bytes entry => bytes ++ entryBytes entry) .empty

def hex (d : TreeDigest) : String := Sha256.hex d.stream

end TreeDigest
end PackageBuild
