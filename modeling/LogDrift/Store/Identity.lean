import LogDrift.Change.Record
import LogDrift.Store.Sha256

/-! # Identity of stored records

A record is stored once per commit: two records of one commit are the same if path, method, kind and
both texts are. `identityBytes` writes these parts one after the other, each with a separator byte
behind it, and `fingerprint` is the digest of that.
-/

namespace LogDrift

/-- The byte behind every part of an identity. -/
def identitySeparator : UInt8 := 0x1f

/-- The parts that tell a record of a commit apart. An absent text counts as an empty one. -/
def identityParts (commitId : String) (r : ChangeRecord) : List String :=
  [commitId, r.filePath, r.method, r.kind.label, r.before.getD "", r.after.getD ""]

/-- The parts of an identity in bytes, with a separator behind each. -/
def identityBytes (commitId : String) (r : ChangeRecord) : List UInt8 :=
  (identityParts commitId r).flatMap fun part =>
    part.toUTF8.toList ++ [identitySeparator]

/-- The digest of the identity of a record within a commit. -/
def fingerprint (commitId : String) (r : ChangeRecord) : String :=
  Sha256.hexDigest (identityBytes commitId r)

end LogDrift
