import PicCascade.Snapshot.Item

/-!
# Snapshot containers

A snapshot is a header followed by tagged fields. The header holds a magic word, the version of
this format, the device identifier and the version of the device's layout. Each field is its tag,
the length of its value and the value. All numbers are little-endian, and nothing follows the last
field. No two fields of a container have the same tag.

A container is built field by field with `add`, which keeps the fields in ascending order of their
tags whatever the order of the additions.
-/

namespace PicCascade.Snapshot

/-- A tagged value. -/
structure Field where
  tag : UInt16
  value : List UInt8
deriving DecidableEq

/-- The most bytes a field can hold: its length is stored in four bytes. -/
def Field.maxLength : Nat := 0xFFFFFFFF

/-- The tag, the length and the value (one turn of the loop in `SnapshotWriter::finish`). A value
that is too long is cut off. -/
def Field.toBytes (f : Field) : List UInt8 :=
  let kept := f.value.take maxLength
  LittleEndian.ofNat 2 f.tag.toNat ++ LittleEndian.ofNat 4 kept.length ++ kept

/-- The first four bytes of every snapshot, `PSNP` (`SNAPSHOT_MAGIC`). -/
def magic : List UInt8 := [0x50, 0x53, 0x4E, 0x50]

/-- The version of the format described here (`FORMAT_VERSION`). -/
def formatVersion : Version := ⟨1, 0⟩

/-- The two numbers, the major one first. -/
def Version.toBytes (v : Version) : List UInt8 :=
  LittleEndian.ofNat 2 v.major.toNat ++ LittleEndian.ofNat 2 v.minor.toNat

/-- The magic word, the format version, the device and the device version. -/
def Header.toBytes (h : Header) : List UInt8 :=
  magic ++ h.format.toBytes ++ h.device.bytes ++ h.version.toBytes

/-- A header and the tagged fields that follow it (`SnapshotWriter` and `SnapshotReader`). -/
structure Container where
  header : Header
  fields : List Field
deriving DecidableEq

namespace Container

/-- A container of the current format without fields (`SnapshotWriter::new`). -/
def empty (device : DeviceId) (version : Version) : Container :=
  ⟨⟨formatVersion, device, version⟩, []⟩

/-- The header and the fields, one after the other (`SnapshotWriter::finish`). -/
def toBytes (c : Container) : List UInt8 :=
  c.header.toBytes ++ c.fields.flatMap Field.toBytes

/-- The value of the field with the given tag (`SnapshotReader::bytes`). -/
def value? (c : Container) (tag : UInt16) : Option (List UInt8) :=
  (c.fields.find? (·.tag == tag)).map (·.value)

/-- Places a field in front of the first field with a higher tag (`insert`, into a map that is
ordered by tag). -/
def insertByTag (f : Field) : List Field → List Field
  | [] => [f]
  | g :: rest => if f.tag < g.tag then f :: g :: rest else g :: insertByTag f rest

/-- Adds a field with a tag that is not in use (`field_bytes`). -/
def add (c : Container) (f : Field) : Except Error Container :=
  if (c.value? f.tag).isSome then .error (.duplicateTag f.tag)
  else .ok { c with fields := insertByTag f c.fields }

/-- A container of the current format with the given fields, which are added in order. -/
def ofFields (device : DeviceId) (version : Version) (fields : List Field) :
    Except Error Container :=
  fields.foldlM add (empty device version)

end Container

end PicCascade.Snapshot
