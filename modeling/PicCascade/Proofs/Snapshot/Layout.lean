import Mathlib.Data.List.Basic
import Mathlib.Data.List.Nodup
import PicCascade.Proofs.Snapshot.Defect

/-!
# The format of a snapshot

`Layout` writes the format out, byte for byte, and `Defect` says what the first thing wrong with a
byte string is. Every byte string has the one or the other, and parsing tells which.

Results:
* `parse_eq_ok_iff_layout`, `parse_eq_error`: what is accepted, and what is refused for which reason.
* `parse_append`: what stands behind a complete snapshot is read as further fields.
* `parse_exact`: both in one, with the fact that a layout is unique and how values are looked up.
-/

namespace PicCascade.Snapshot.Container

variable {expected : DeviceId} {bytes : List UInt8} {c : Container}

/-! ## What is accepted -/

/-- The bytes are those of a snapshot of the expected device with the header and the fields of `c`:
the magic word, format 1 in any minor version, the device, its version, and then for each field the
tag, the length and the value. No tag is repeated. -/
structure Layout (expected : DeviceId) (bytes : List UInt8) (c : Container) : Prop where
  format : c.header.format.major = 1
  device : c.header.device = expected
  fits : ∀ f ∈ c.fields, f.value.length < 2 ^ 32
  distinct : (c.fields.map (·.tag)).Nodup
  bytes_eq : bytes =
    magic ++ LittleEndian.ofNat 2 1 ++ LittleEndian.ofNat 2 c.header.format.minor.toNat ++
      expected.bytes ++ LittleEndian.ofNat 2 c.header.version.major.toNat ++
      LittleEndian.ofNat 2 c.header.version.minor.toNat ++
      c.fields.flatMap fun f =>
        LittleEndian.ofNat 2 f.tag.toNat ++ LittleEndian.ofNat 4 f.value.length ++ f.value

theorem toBytes_eq (format : c.header.format.major = 1)
    (fits : ∀ f ∈ c.fields, f.value.length < 2 ^ 32) :
    c.toBytes =
      magic ++ LittleEndian.ofNat 2 1 ++ LittleEndian.ofNat 2 c.header.format.minor.toNat ++
        c.header.device.bytes ++ LittleEndian.ofNat 2 c.header.version.major.toNat ++
        LittleEndian.ofNat 2 c.header.version.minor.toNat ++
        c.fields.flatMap fun f =>
          LittleEndian.ofNat 2 f.tag.toNat ++ LittleEndian.ofNat 4 f.value.length ++ f.value := by
  have written := List.flatMap_congr fun f hf =>
    Field.toBytes_of_le (Nat.le_of_lt_succ (fits f hf))
  have major : LittleEndian.ofNat 2 (1 : UInt16).toNat = LittleEndian.ofNat 2 1 := rfl
  simp only [toBytes, Header.toBytes, Version.toBytes, written, format, major, List.append_assoc]

theorem parse_eq_ok_iff_layout : parse expected bytes = .ok c ↔ Layout expected bytes c := by
  rw [parse_eq_ok]
  constructor
  · rintro ⟨format, rfl, fits, distinct, rfl⟩
    have fits : ∀ f ∈ c.fields, f.value.length < 2 ^ 32 := fun f hf => Nat.lt_succ_of_le (fits f hf)
    exact ⟨format, rfl, fits, distinct, toBytes_eq format fits⟩
  · rintro ⟨format, rfl, fits, distinct, rfl⟩
    refine ⟨format, rfl, fun f hf => Nat.le_of_lt_succ (fits f hf), distinct, ?_⟩
    exact (toBytes_eq format fits).symm

/-! ## What is refused -/

/-- What stands behind a complete snapshot is read as further fields. -/
theorem parse_append {rest : List UInt8} (layout : Layout expected bytes c) :
    parse expected (bytes ++ rest) =
      (readFields (c.fields.map (·.tag)).reverse rest).map
        fun more => ⟨c.header, c.fields ++ more⟩ := by
  obtain ⟨format, device, fits, distinct, rfl⟩ :=
    parse_eq_ok.mp (parse_eq_ok_iff_layout.mpr layout)
  have header : (Header.read expected).run (c.toBytes ++ rest) =
      .ok c.header (c.fields.flatMap Field.toBytes ++ rest) :=
    Header.run_read_eq_ok.mpr ⟨format, device, by rw [toBytes, List.append_assoc]⟩
  have fields : readFields [] (c.fields.flatMap Field.toBytes ++ rest) =
      (readFields (c.fields.map (·.tag)).reverse rest).map (c.fields ++ ·) := by
    rw [readFields_append (fun f hf => ⟨fits f hf, List.not_mem_nil⟩) distinct, List.append_nil]
  rw [parse, header]
  dsimp only
  rw [fields]
  cases readFields (c.fields.map (·.tag)).reverse rest <;> rfl

/-- The first defect of a byte string and the error that reports it. The defect is in the header, or
in what follows a complete snapshot. -/
inductive Defect (expected : DeviceId) : List UInt8 → Error → Prop
  | header {bytes : List UInt8} {e : Error} (defect : Header.Defect expected bytes e) :
      Defect expected bytes e
  | field {before rest : List UInt8} {c : Container} {e : Error}
      (layout : Layout expected before c)
      (defect : Field.Defect (c.fields.map (·.tag)) rest e) : Defect expected (before ++ rest) e

theorem parse_eq_error {e : Error} : parse expected bytes = .error e ↔ Defect expected bytes e := by
  constructor
  · intro h
    unfold parse at h
    cases header : (Header.read expected).run bytes with
    | error e' rest =>
      rw [header] at h
      cases h
      exact .header (Header.fails_read.mp ⟨rest, header⟩)
    | ok head rest =>
      rw [header] at h
      dsimp only at h
      cases failed : readFields [] rest with
      | ok fields =>
        rw [failed] at h
        cases h
      | error e' =>
        rw [failed] at h
        cases h
        obtain ⟨format, device, rfl⟩ := Header.run_read_eq_ok.mp header
        obtain ⟨fields, rest, fits, distinct, rfl, defect⟩ := readFields_eq_error.mp failed
        have layout : Layout expected (toBytes ⟨head, fields⟩) ⟨head, fields⟩ :=
          parse_eq_ok_iff_layout.mp <| parse_eq_ok.mpr
            ⟨format, device, fun f hf => (fits f hf).1, distinct, rfl⟩
        rw [← List.append_assoc]
        exact .field layout (defect.mono (by simp))
  · intro h
    cases h with
    | header defect =>
      obtain ⟨rest, failed⟩ := Header.fails_read.mpr defect
      rw [parse, failed]
    | field layout defect =>
      rw [parse_append layout, readFields_of_defect (defect.mono (by simp))]
      rfl

/-! ## Values -/

/-- With distinct tags, the value under a tag is that of the field with the tag. -/
theorem value?_eq_some_iff (distinct : (c.fields.map (·.tag)).Nodup) {tag : UInt16}
    {value : List UInt8} : c.value? tag = some value ↔ ⟨tag, value⟩ ∈ c.fields := by
  unfold value?
  constructor
  · intro h
    obtain ⟨f, found, rfl⟩ := Option.map_eq_some_iff.mp h
    obtain rfl : f.tag = tag := by simpa using List.find?_some found
    exact List.mem_of_find?_eq_some found
  · intro h
    cases found : c.fields.find? (·.tag == tag) with
    | none => simpa using List.find?_eq_none.mp found _ h
    | some g =>
      have same : g.tag = tag := by simpa using List.find?_some found
      have unique := List.inj_on_of_nodup_map distinct (List.mem_of_find?_eq_some found) h same
      rw [unique]
      rfl

theorem value?_eq_none_iff {tag : UInt16} : c.value? tag = none ↔ tag ∉ c.fields.map (·.tag) := by
  simp [value?]

/-! ## The format -/

/-- Parsing accepts exactly the byte strings that are laid out as a snapshot of the expected device,
and each of them has one layout only. The value under a tag is that of the field with the tag. Any
other byte string is refused for its first defect in reading order. -/
theorem parse_exact (expected : DeviceId) (bytes : List UInt8) :
    (∀ c, parse expected bytes = .ok c ↔ Layout expected bytes c) ∧
      (∀ c d, Layout expected bytes c → Layout expected bytes d → c = d) ∧
      (∀ c, parse expected bytes = .ok c → ∀ tag,
        (∀ value, c.value? tag = some value ↔ ⟨tag, value⟩ ∈ c.fields) ∧
          (c.value? tag = none ↔ tag ∉ c.fields.map (·.tag))) ∧
      ∀ e, parse expected bytes = .error e ↔ Defect expected bytes e := by
  refine ⟨fun c => parse_eq_ok_iff_layout, ?_, ?_, fun e => parse_eq_error⟩
  · intro c d hc hd
    have same := (parse_eq_ok_iff_layout.mpr hc).symm.trans (parse_eq_ok_iff_layout.mpr hd)
    exact Except.ok.inj same
  · intro c parsed tag
    have layout := parse_eq_ok_iff_layout.mp parsed
    exact ⟨fun value => value?_eq_some_iff layout.distinct, value?_eq_none_iff⟩

/-- A version that is cut short is reported as such, whatever its major number. -/
example : parse ⟨[0x54, 0x45, 0x53, 0x54], rfl⟩ [0x50, 0x53, 0x4E, 0x50, 0x02, 0x00] =
    .error .unexpectedEnd := by
  rfl

end PicCascade.Snapshot.Container
