import PicCascade.Text.Structure

/-!
# Snapshot headers

A snapshot names the version of its own format, the kind of device it was taken from, and the
version of that device's field layout. Versions are ordered by major number first.
-/

namespace PicCascade.Snapshot

/-- A version number in two parts (`SnapshotVersion`). -/
structure Version where
  major : UInt16
  minor : UInt16
deriving DecidableEq

namespace Version

/-- The major numbers decide; the minor numbers decide between equal major ones. -/
instance : Ord Version where
  compare a b := (compare a.major b.major).then (compare a.minor b.minor)

/-- The two numbers with a point between them (`Display` of `SnapshotVersion`). -/
def text (v : Version) : String := v.major.toNat.repr ++ "." ++ v.minor.toNat.repr

/-- The structure of a version, spelled out (`Debug` of `SnapshotVersion`). -/
def describe (v : Version) : String :=
  Text.record "SnapshotVersion" [("major", v.major.toNat.repr), ("minor", v.minor.toNat.repr)]

end Version

/-- The four bytes that name a kind of device (`device_id`). -/
structure DeviceId where
  bytes : List UInt8
  length_bytes : bytes.length = 4 := by decide
deriving DecidableEq

namespace DeviceId

/-- The identifier with the given bytes, if there are four of them. -/
def ofBytes? (bs : List UInt8) : Option DeviceId :=
  if h : bs.length = 4 then some ⟨bs, h⟩ else none

/-- The bytes as a list of decimal numbers. -/
def text (id : DeviceId) : String := Text.list (id.bytes.map (·.toNat.repr))

end DeviceId

/-- What stands before the fields of a snapshot (`SnapshotHeader`). -/
structure Header where
  /-- The version of the format (`format_version`). -/
  format : Version
  /-- The kind of device (`device_id`). -/
  device : DeviceId
  /-- The version of the device's field layout (`device_version`). -/
  version : Version
deriving DecidableEq

end PicCascade.Snapshot
