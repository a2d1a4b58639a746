import PicCascade.Proofs.Pair.Load
import PicCascade.Proofs.Snapshot.Layout

/-!
# Snapshots of other minor versions

A later minor version may add fields to the snapshot of a pair. A reader that does not know them
still reads the snapshot: it looks at the fields with three tags and at the major version of the
layout, and at nothing else that can differ between two snapshots of a pair.

Results:
* `Container.value?_congr`, `Container.bool?_congr`, `Saved.registers_congr`: what is read under a
  tag depends on the field with that tag.
* `Saved.ofContainer_congr`: what a container decodes to depends on the known fields.
* `restore_compatible`: snapshots with the same known fields do the same to every pair.
-/

namespace PicCascade

open Snapshot

/-! ## Reading one field -/

namespace Snapshot.Container

variable {c d : Container} {tag : UInt16}

/-- With distinct tags, the order of the fields does not matter to what is found. -/
theorem value?_congr (distinctC : (c.fields.map (·.tag)).Nodup)
    (distinctD : (d.fields.map (·.tag)).Nodup)
    (same : ∀ value, ⟨tag, value⟩ ∈ c.fields ↔ ⟨tag, value⟩ ∈ d.fields) :
    c.value? tag = d.value? tag := by
  apply Option.ext
  intro value
  rw [value?_eq_some_iff distinctC, value?_eq_some_iff distinctD]
  exact same value

theorem bool?_congr (same : c.value? tag = d.value? tag) : c.bool? tag = d.bool? tag := by
  have byte : c.u8? tag = d.u8? tag := by rw [u8?, u8?, number?, number?, same]
  rw [bool?, bool?, byte]

end Snapshot.Container

/-! ## Reading a snapshot of a pair -/

namespace Saved

variable {c d : Container} {tag : UInt16} {saved : Saved}

theorem registers_congr (same : c.value? tag = d.value? tag) : registers c tag = registers d tag := by
  rw [registers, registers, same]

/-- The tags of the fields that are looked at. -/
def knownTags : List UInt16 := [primaryTag, secondaryTag, countingTag]

/-- What a container decodes to, and the error if it does not decode, depends on the major version of
the layout and on the known fields. -/
theorem ofContainer_congr (major : c.header.version.major = d.header.version.major)
    (same : ∀ tag ∈ knownTags, c.value? tag = d.value? tag) : ofContainer c = ofContainer d := by
  have required : c.requireMajor version.major = d.requireMajor version.major := by
    rw [Container.requireMajor, Container.requireMajor, major]
  have primary : registers c primaryTag = registers d primaryTag :=
    registers_congr (same primaryTag (by decide))
  have secondary : registers c secondaryTag = registers d secondaryTag :=
    registers_congr (same secondaryTag (by decide))
  have counting : c.bool? countingTag = d.bool? countingTag :=
    Container.bool?_congr (same countingTag (by decide))
  rw [ofContainer, ofContainer, required, primary, secondary, counting]

theorem ofBytes_of_parse {bytes : List UInt8} (parsed : Container.parse device bytes = .ok c) :
    ofBytes bytes = ofContainer c := by
  rw [ofBytes, parsed]
  rfl

end Saved

namespace Pair

variable {Wire : Type} {p : Pair Wire} {bytes bytes' : List UInt8} {c d : Container}

/-- Snapshots of a pair are compatible within a major version. Two snapshots in the layout of version
1 that have the same known fields do the same to every pair: the answer, be it an error, the pair
afterwards and the levels that are driven are the same. The snapshots may differ in fields with other
tags, in the order of their fields, and in the minor versions of the format and of the layout. -/
theorem restore_compatible (parsed : Container.parse Saved.device bytes = .ok c)
    (parsed' : Container.parse Saved.device bytes' = .ok d)
    (major : c.header.version.major = 1) (major' : d.header.version.major = 1)
    (same : ∀ tag ∈ Saved.knownTags, ∀ value, ⟨tag, value⟩ ∈ c.fields ↔ ⟨tag, value⟩ ∈ d.fields) :
    p.restore bytes = p.restore bytes' := by
  obtain ⟨-, -, -, distinctC, -⟩ := Container.parse_eq_ok.mp parsed
  obtain ⟨-, -, -, distinctD, -⟩ := Container.parse_eq_ok.mp parsed'
  have values : ∀ tag ∈ Saved.knownTags, c.value? tag = d.value? tag := by
    intro tag known
    exact Container.value?_congr distinctC distinctD (same tag known)
  have decoded : Saved.ofBytes bytes = Saved.ofBytes bytes' := by
    rw [Saved.ofBytes_of_parse parsed, Saved.ofBytes_of_parse parsed']
    exact Saved.ofContainer_congr (major.trans major'.symm) values
  rw [restore, restore, decoded]

/-- A snapshot of a pair whose secondary has been asked for service on line 3. -/
def requested : Container where
  header := ⟨formatVersion, Saved.device, Saved.version⟩
  fields :=
    [⟨Saved.primaryTag, Registers.toBytes { irr := .ofByte 0x04, lastHigh := .ofByte 0x04 }⟩,
      ⟨Saved.secondaryTag, Registers.toBytes { irr := .ofByte 0x08 }⟩]

/-- The same from a later version, which writes the secondary first and adds a field. -/
def requestedLater : Container where
  header := ⟨⟨1, 5⟩, Saved.device, ⟨1, 2⟩⟩
  fields :=
    [⟨Saved.secondaryTag, Registers.toBytes { irr := .ofByte 0x08 }⟩, ⟨9, [0xFF, 0xFF]⟩,
      ⟨Saved.primaryTag, Registers.toBytes { irr := .ofByte 0x04, lastHigh := .ofByte 0x04 }⟩]

/-- The bytes differ. Both are accepted and raise the wire. -/
theorem restore_compatible_requested :
    let p : Pair Unit := ((new {}).connect (some ())).pair
    requested.toBytes ≠ requestedLater.toBytes ∧
      p.restore requested.toBytes = p.restore requestedLater.toBytes ∧
      (p.restore requested.toBytes).driven = [((), true)] := by
  intro p
  have parsed : Container.parse Saved.device requested.toBytes = .ok requested :=
    Container.parse_eq_ok.mpr ⟨rfl, rfl, by decide, by decide, rfl⟩
  have parsed' : Container.parse Saved.device requestedLater.toBytes = .ok requestedLater :=
    Container.parse_eq_ok.mpr ⟨rfl, rfl, by decide, by decide, rfl⟩
  have same : ∀ tag ∈ Saved.knownTags, ∀ value,
      ⟨tag, value⟩ ∈ requested.fields ↔ ⟨tag, value⟩ ∈ requestedLater.fields := by
    intro tag known value
    simp only [Saved.knownTags, List.mem_cons, List.not_mem_nil, or_false] at known
    rcases known with rfl | rfl | rfl <;>
      simp [requested, requestedLater, Saved.primaryTag, Saved.secondaryTag, Saved.countingTag]
  refine ⟨by decide, restore_compatible parsed parsed' rfl rfl same, ?_⟩
  have accepted : Saved.ofBytes requested.toBytes = Saved.ofContainer requested :=
    Saved.ofBytes_of_parse parsed
  rw [restore, accepted]
  decide +kernel

end Pair

end PicCascade
