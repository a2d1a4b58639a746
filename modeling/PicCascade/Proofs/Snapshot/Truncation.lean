import Mathlib.Data.List.Infix
import PicCascade.Proofs.Snapshot.Layout

/-!
# Snapshots that are cut short

The first bytes of a snapshot are again a snapshot if they end with the header or with a field: it
has the same header and the fields before the cut. A cut anywhere else, in any part of the header or
within the tag, the length or the value of a field, is noticed as an unexpected end.

Results:
* `Field.exists_complete`: the first bytes of some fields are complete fields and the beginning of
  another one.
* `Header.defect_of_start`: the beginning of a header is refused for its end.
* `Container.parse_of_end`: a cut behind the header or behind a field.
* `Container.parse_cut`: every cut.
-/

namespace PicCascade.Snapshot

/-! ## The header -/

@[simp]
theorem Version.length_toBytes (v : Version) : v.toBytes.length = 4 := by
  rw [toBytes, List.length_append, LittleEndian.length_ofNat, LittleEndian.length_ofNat]

theorem Header.toBytes_append (h : Header) :
    h.toBytes = magic ++ (h.format.toBytes ++ (h.device.bytes ++ h.version.toBytes)) := by
  simp only [toBytes, List.append_assoc]

@[simp]
theorem Header.length_toBytes (h : Header) : h.toBytes.length = 16 := by
  have word : magic.length = 4 := rfl
  rw [toBytes_append, List.length_append, List.length_append, List.length_append,
    Version.length_toBytes, Version.length_toBytes, h.device.length_bytes, word]

/-- The beginning of a header is refused for its end, whichever part is cut. -/
theorem Header.defect_of_start {h : Header} (format : h.format.major = 1) {part : List UInt8}
    (start : part <+: h.toBytes) (short : part.length < 16) :
    Header.Defect h.device part .unexpectedEnd := by
  rw [toBytes_append] at start
  have word : magic.length = 4 := rfl
  by_cases inMagic : part.length < 4
  · exact .magicCut inMagic
  obtain ⟨second, rfl, fromFormat⟩ := exists_eq_append_of_start start (by omega)
  rw [List.length_append] at short
  by_cases inFormat : second.length < 4
  · exact .formatCut inFormat
  have formatLength := h.format.length_toBytes
  obtain ⟨third, rfl, fromDevice⟩ := exists_eq_append_of_start fromFormat (by omega)
  rw [List.length_append] at short
  rw [← List.append_assoc]
  by_cases inDevice : third.length < 4
  · exact .deviceCut format inDevice
  have deviceLength := h.device.length_bytes
  obtain ⟨fourth, rfl, -⟩ := exists_eq_append_of_start fromDevice (by omega)
  rw [List.length_append] at short
  rw [← List.append_assoc]
  exact .versionCut format (by omega)

/-! ## The fields -/

/-- The first bytes of some fields are those of the first few fields and, unless they end there, the
beginning of the next one. -/
theorem Field.exists_complete {fields : List Field}
    (fits : ∀ f ∈ fields, f.value.length ≤ Field.maxLength) {part : List UInt8}
    (start : part <+: fields.flatMap Field.toBytes) :
    ∃ complete rest, complete <+: fields ∧ part = complete.flatMap Field.toBytes ++ rest ∧
      (rest ≠ [] → Field.CutShort rest) := by
  induction fields generalizing part with
  | nil =>
    obtain rfl : part = [] := List.prefix_nil.mp start
    exact ⟨[], [], List.prefix_refl [], rfl, fun more => absurd rfl more⟩
  | cons f fields ih =>
    rw [List.flatMap_cons] at start
    by_cases short : part.length < f.toBytes.length
    · have beginning : part <+: f.toBytes :=
        List.prefix_of_prefix_length_le start (List.prefix_append _ _) (Nat.le_of_lt short)
      refine ⟨[], part, List.nil_prefix, rfl, fun _ => ?_⟩
      exact ⟨f, fits f List.mem_cons_self, beginning, short⟩
    · obtain ⟨others, rfl, begins⟩ := exists_eq_append_of_start start (Nat.le_of_not_lt short)
      obtain ⟨complete, rest, among, rfl, cut⟩ :=
        ih (fun g hg => fits g (List.mem_cons_of_mem f hg)) begins
      refine ⟨f :: complete, rest, (List.prefix_cons_inj f).mpr among, ?_, cut⟩
      rw [List.flatMap_cons, List.append_assoc]

namespace Container

variable {expected : DeviceId} {bytes part : List UInt8} {c : Container}

/-- The length of a snapshot with the given fields: 16 bytes for the header, and for each field two
for the tag, four for the length, and the value. -/
def endOf : List Field → Nat
  | [] => 16
  | f :: fields => 2 + 4 + f.value.length + endOf fields

theorem add_length_flatMap_toBytes {fields : List Field}
    (fits : ∀ f ∈ fields, f.value.length ≤ Field.maxLength) :
    16 + (fields.flatMap Field.toBytes).length = endOf fields := by
  induction fields with
  | nil => rfl
  | cons f fields ih =>
    have first : f.toBytes.length = 2 + 4 + f.value.length :=
      Field.length_toBytes (fits f List.mem_cons_self)
    have others := ih fun g hg => fits g (List.mem_cons_of_mem f hg)
    rw [List.flatMap_cons, List.length_append, first, endOf, ← others]
    omega

theorem length_toBytes (fits : ∀ f ∈ c.fields, f.value.length ≤ Field.maxLength) :
    c.toBytes.length = endOf c.fields := by
  rw [toBytes, List.length_append, Header.length_toBytes, add_length_flatMap_toBytes fits]

/-! ## Cutting a snapshot -/

/-- A snapshot without its last fields. -/
theorem parse_toBytes_of_kept (parsed : parse expected bytes = .ok c) {kept : List Field}
    (among : kept <+: c.fields) :
    parse expected (toBytes ⟨c.header, kept⟩) = .ok ⟨c.header, kept⟩ := by
  obtain ⟨format, device, fits, distinct, -⟩ := parse_eq_ok.mp parsed
  have tags : kept.map (·.tag) <+: c.fields.map (·.tag) := among.map _
  exact parse_eq_ok.mpr
    ⟨format, device, fun f hf => fits f (among.subset hf), tags.sublist.nodup distinct, rfl⟩

theorem toBytes_prefix_of_kept {kept : List Field} (among : kept <+: c.fields) :
    toBytes ⟨c.header, kept⟩ <+: c.toBytes := by
  obtain ⟨lost, fields⟩ := among
  refine ⟨lost.flatMap Field.toBytes, ?_⟩
  rw [toBytes, toBytes, ← fields, List.flatMap_append, List.append_assoc]

/-- If the cut is behind the header or behind a field, what is left is the snapshot with the fields
before the cut. -/
theorem parse_of_end (parsed : parse expected bytes = .ok c) (start : part <+: bytes)
    {kept : List Field} (among : kept <+: c.fields) (cut : part.length = endOf kept) :
    parse expected part = .ok ⟨c.header, kept⟩ := by
  obtain ⟨-, -, fits, -, rfl⟩ := parse_eq_ok.mp parsed
  have length : (toBytes ⟨c.header, kept⟩).length = endOf kept :=
    length_toBytes fun f hf => fits f (among.subset hf)
  have same : part = toBytes ⟨c.header, kept⟩ := by
    have shorter := List.prefix_of_prefix_length_le start (toBytes_prefix_of_kept among) (by omega)
    exact shorter.eq_of_length (by omega)
  rw [same]
  exact parse_toBytes_of_kept parsed among

/-- If the cut is anywhere else, the end of the input is reported. -/
theorem parse_of_not_end (parsed : parse expected bytes = .ok c) (start : part <+: bytes)
    (cut : ∀ kept, kept <+: c.fields → part.length ≠ endOf kept) :
    parse expected part = .error .unexpectedEnd := by
  obtain ⟨format, rfl, fits, -, rfl⟩ := parse_eq_ok.mp parsed
  apply parse_eq_error.mpr
  rw [toBytes] at start
  by_cases inHeader : part.length < 16
  · have beginning : part <+: c.header.toBytes :=
      List.prefix_of_prefix_length_le start (List.prefix_append _ _) (by simp; omega)
    exact .header (Header.defect_of_start format beginning inHeader)
  · obtain ⟨behind, rfl, begins⟩ := exists_eq_append_of_start start (by simp; omega)
    obtain ⟨kept, rest, among, rfl, cutShort⟩ := Field.exists_complete fits begins
    have split : c.header.toBytes ++ (kept.flatMap Field.toBytes ++ rest) =
        toBytes ⟨c.header, kept⟩ ++ rest := by
      rw [toBytes, List.append_assoc]
    rw [split] at cut ⊢
    have more : rest ≠ [] := by
      rintro rfl
      apply cut kept among
      rw [List.append_nil]
      exact length_toBytes fun f hf => fits f (among.subset hf)
    have layout : Layout c.header.device (toBytes ⟨c.header, kept⟩) ⟨c.header, kept⟩ :=
      parse_eq_ok_iff_layout.mp (parse_toBytes_of_kept parsed among)
    exact .field layout (.cutShort more (cutShort more))

/-- Whoever cuts a snapshot short is noticed, unless the cut is behind the header or behind a field.
There, what is left is a snapshot with the same header and exactly the fields before the cut.
Anywhere else the end of the input is reported, and never anything else. -/
theorem parse_cut (parsed : parse expected bytes = .ok c) (start : part <+: bytes) :
    (∀ kept, kept <+: c.fields → part.length = endOf kept →
        parse expected part = .ok ⟨c.header, kept⟩) ∧
      ((∀ kept, kept <+: c.fields → part.length ≠ endOf kept) →
        parse expected part = .error .unexpectedEnd) := by
  constructor
  · intro kept among cut
    exact parse_of_end parsed start among cut
  · intro cut
    exact parse_of_not_end parsed start cut

/-- A snapshot of 33 bytes. Its first field ends behind byte 24. -/
def numberAndText : Container where
  header := ⟨⟨1, 3⟩, { bytes := [0x54, 0x45, 0x53, 0x54] }, ⟨2, 0⟩⟩
  fields := [⟨7, (Item.u16 0x0102).toBytes⟩, ⟨2, [0x61, 0x62, 0x63]⟩]

/-- Cuts behind the first field and behind the header leave snapshots. Cuts within the device, within
the tag of the first field and within the text are noticed. -/
theorem parse_cut_numberAndText :
    let expected := numberAndText.header.device
    let bytes := numberAndText.toBytes
    parse expected bytes = .ok numberAndText ∧
      parse expected (bytes.take 24) =
        .ok ⟨numberAndText.header, [⟨7, (Item.u16 0x0102).toBytes⟩]⟩ ∧
      parse expected (bytes.take 16) = .ok ⟨numberAndText.header, []⟩ ∧
      ∀ cut ∈ [9, 17, 32], parse expected (bytes.take cut) = .error .unexpectedEnd := by
  intro expected bytes
  have parsed : parse expected bytes = .ok numberAndText :=
    parse_eq_ok.mpr ⟨rfl, rfl, by decide, by decide, rfl⟩
  have start (cut : Nat) : bytes.take cut <+: bytes := List.take_prefix cut bytes
  refine ⟨parsed, ?_, ?_, ?_⟩
  · apply (parse_cut parsed (start 24)).1
    · exact ⟨[⟨2, [0x61, 0x62, 0x63]⟩], rfl⟩
    · rfl
  · apply (parse_cut parsed (start 16)).1
    · exact List.nil_prefix
    · rfl
  · intro cut hcut
    have elsewhere : ∀ cut ∈ [9, 17, 32], ∀ kept ∈ numberAndText.fields.inits,
        (numberAndText.toBytes.take cut).length ≠ endOf kept := by decide
    apply (parse_cut parsed (start cut)).2
    intro kept among
    exact elsewhere cut hcut kept ((List.mem_inits _ _).mpr among)

end Container

end PicCascade.Snapshot
