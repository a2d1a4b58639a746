import PicCascade.Snapshot.Container

/-!
# Reading snapshot containers

The header is read part by part, and each part is checked before the next one is read. Fields
follow until the input ends, in any order. A tag that was already taken is refused once its field
has been read.

Results:
* `Field.length_lt_of_run_read`: reading a field consumes input, so the fields come to an end.
-/

namespace PicCascade.Snapshot

/-- Reads the two numbers of a version. -/
def Version.read : Reader Version := do
  let major ← Reader.u16
  let minor ← Reader.u16
  return ⟨major, minor⟩

/-- Reads a device identifier. -/
def DeviceId.read : Reader DeviceId := do
  let bytes ← Reader.take 4
  return ⟨bytes.val, bytes.property⟩

/-- Reads the header of a snapshot of the expected device (the first half of
`SnapshotReader::parse`). The minor number of the format is not restricted. -/
def Header.read (expected : DeviceId) : Reader Header := do
  let word ← Reader.take 4
  Reader.require (word.val = magic) .invalidMagic
  let format ← Version.read
  Reader.require (format.major = formatVersion.major) (.unsupportedFormat format)
  let device ← DeviceId.read
  Reader.require (device = expected) (.deviceMismatch expected device)
  let version ← Version.read
  return ⟨format, device, version⟩

/-- Reads one field (the loop body of `SnapshotReader::parse`). -/
def Field.read : Reader Field := do
  let tag ← Reader.u16
  let length ← Reader.u32
  let value ← Reader.take length.toNat
  return ⟨tag, value⟩

/-- A field takes up at least the six bytes of its tag and its length. -/
theorem Field.length_lt_of_run_read {f : Field} {input rest : List UInt8}
    (h : Field.read.run input = .ok f rest) : rest.length < input.length := by
  simp only [Field.read, Reader.u16, Reader.u32, Reader.run_bind_eq_ok, Reader.run_pure_eq_ok,
    Reader.run_number_eq_ok, Reader.run_take_eq_ok] at h
  obtain ⟨_, _, ⟨_, _, ⟨tag, htag, -, rfl⟩, -, rfl⟩,
    _, _, ⟨_, _, ⟨length, hlength, -, rfl⟩, -, rfl⟩,
    value, _, rfl, -, rfl⟩ := h
  simp only [List.length_append]
  omega

namespace Container

/-- Reads fields until the input ends (the loop of `SnapshotReader::parse`). The tags in `taken`
belong to the fields before. -/
def readFields (taken : List UInt16) (input : List UInt8) : Except Error (List Field) :=
  if input.isEmpty then .ok []
  else
    match _ : Field.read.run input with
    | .error e _ => .error e
    | .ok f rest =>
      if f.tag ∈ taken then .error (.duplicateTag f.tag)
      else return f :: (← readFields (f.tag :: taken) rest)
termination_by input.length
decreasing_by exact Field.length_lt_of_run_read ‹_›

/-- Reads a snapshot of the expected device (`SnapshotReader::parse`). -/
def parse (expected : DeviceId) (bytes : List UInt8) : Except Error Container :=
  match (Header.read expected).run bytes with
  | .error e _ => .error e
  | .ok header rest => return ⟨header, ← readFields [] rest⟩

end Container

end PicCascade.Snapshot
