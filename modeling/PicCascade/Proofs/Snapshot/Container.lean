import PicCascade.Proofs.Snapshot.Reader
import PicCascade.Snapshot.Container.Parser

/-!
# What the container parser accepts

The parser of each part succeeds exactly on inputs that begin with the bytes of the part. Together
they accept the bytes of every container of the right format and device whose tags are distinct and
whose fields are not too long, and nothing else.

Results:
* `Version.run_read_eq_ok`, `DeviceId.run_read_eq_ok`, `Header.run_read_eq_ok`,
  `Field.run_read_eq_ok`: the parts.
* `Container.readFields_eq_ok`: the fields up to the end of the input.
* `Container.parse_eq_ok`: the whole container.
-/

namespace PicCascade.Snapshot

/-! ## The header -/

theorem Version.run_read_eq_ok {v : Version} {input rest : List UInt8} :
    Version.read.run input = .ok v rest ↔ input = v.toBytes ++ rest := by
  simp only [Version.read, Reader.run_bind_eq_ok, Reader.run_pure_eq_ok, Reader.run_u16_eq_ok]
  constructor
  · rintro ⟨major, _, rfl, minor, _, rfl, rfl, rfl⟩
    simp [Version.toBytes]
  · rintro rfl
    exact ⟨v.major, _, by rw [Version.toBytes, List.append_assoc], v.minor, rest, rfl, rfl, rfl⟩

theorem DeviceId.run_read_eq_ok {id : DeviceId} {input rest : List UInt8} :
    DeviceId.read.run input = .ok id rest ↔ input = id.bytes ++ rest := by
  simp only [DeviceId.read, Reader.run_bind_eq_ok, Reader.run_pure_eq_ok, Reader.run_take_eq_ok]
  constructor
  · rintro ⟨bytes, _, rfl, rfl, rfl⟩
    rfl
  · rintro rfl
    exact ⟨⟨id.bytes, id.length_bytes⟩, rest, rfl, rfl, rfl⟩

theorem Header.run_read_eq_ok {expected : DeviceId} {h : Header} {input rest : List UInt8} :
    (Header.read expected).run input = .ok h rest ↔
      h.format.major = formatVersion.major ∧ h.device = expected ∧
        input = h.toBytes ++ rest := by
  simp only [Header.read, Reader.run_bind_eq_ok, Reader.run_pure_eq_ok, Reader.run_take_eq_ok,
    Reader.run_require_eq_ok, Version.run_read_eq_ok, DeviceId.run_read_eq_ok]
  constructor
  · rintro ⟨word, _, rfl, -, _, ⟨hword, rfl⟩, format, _, rfl, -, _, ⟨supported, rfl⟩,
      device, _, rfl, -, _, ⟨rfl, rfl⟩, version, _, rfl, rfl, rfl⟩
    refine ⟨supported, rfl, ?_⟩
    simp [Header.toBytes, hword]
  · obtain ⟨format, device, version⟩ := h
    rintro ⟨supported, rfl, rfl⟩
    refine ⟨⟨magic, rfl⟩, _, ?_, (), _, ⟨rfl, rfl⟩, format, _, rfl, (), _, ⟨supported, rfl⟩,
      device, _, rfl, (), _, ⟨rfl, rfl⟩, version, rest, rfl, rfl, rfl⟩
    simp [Header.toBytes]

/-! ## The fields -/

theorem Field.toBytes_of_le {f : Field} (fits : f.value.length ≤ maxLength) :
    f.toBytes =
      LittleEndian.ofNat 2 f.tag.toNat ++ LittleEndian.ofNat 4 f.value.length ++ f.value := by
  rw [Field.toBytes, List.take_of_length_le fits]

theorem Field.run_read_eq_ok {f : Field} {input rest : List UInt8} :
    Field.read.run input = .ok f rest ↔
      f.value.length ≤ maxLength ∧ input = f.toBytes ++ rest := by
  simp only [Field.read, Reader.run_bind_eq_ok, Reader.run_pure_eq_ok, Reader.run_u16_eq_ok,
    Reader.run_u32_eq_ok, Reader.run_take_eq_ok]
  constructor
  · rintro ⟨tag, _, rfl, length, _, rfl, value, _, rfl, rfl, rfl⟩
    have fits : value.val.length ≤ maxLength := by
      rw [value.property]
      exact Nat.le_of_lt_succ length.toNat_lt
    refine ⟨fits, ?_⟩
    simp [Field.toBytes_of_le (f := ⟨tag, value.val⟩) fits, value.property]
  · rintro ⟨fits, rfl⟩
    have length : (UInt32.ofNat f.value.length).toNat = f.value.length :=
      UInt32.toNat_ofNat_of_lt' (Nat.lt_succ_of_le fits)
    refine ⟨f.tag, _, ?_, UInt32.ofNat f.value.length, _, rfl, ⟨f.value, length.symm⟩, rest, rfl,
      rfl, rfl⟩
    simp [Field.toBytes_of_le fits, length]

namespace Container

/-- The next field decides how reading goes on. -/
theorem readFields_of_ne_nil {taken : List UInt16} {input : List UInt8} (more : input ≠ []) :
    readFields taken input =
      match Field.read.run input with
      | .error e _ => .error e
      | .ok f rest =>
        if f.tag ∈ taken then .error (.duplicateTag f.tag)
        else (readFields (f.tag :: taken) rest).map (f :: ·) := by
  rw [readFields, if_neg (by simpa using more)]
  split
  · rename_i h
    rw [h]
  · rename_i f rest h
    rw [h]
    dsimp only
    split
    · rfl
    · cases readFields (f.tag :: taken) rest <;> rfl

theorem readFields_eq_ok_nil {taken : List UInt16} {input : List UInt8} :
    readFields taken input = .ok [] ↔ input = [] := by
  constructor
  · intro h
    by_cases more : input = []
    · exact more
    · rw [readFields_of_ne_nil more] at h
      split at h
      · cases h
      · split at h
        · cases h
        · rename_i f rest _ _
          cases others : readFields (f.tag :: taken) rest <;> rw [others] at h <;> cases h
  · rintro rfl
    rw [readFields]
    rfl

theorem readFields_eq_ok_cons {taken : List UInt16} {input : List UInt8} {f : Field}
    {fields : List Field} :
    readFields taken input = .ok (f :: fields) ↔
      ∃ rest, Field.read.run input = .ok f rest ∧ f.tag ∉ taken ∧
        readFields (f.tag :: taken) rest = .ok fields := by
  constructor
  · intro h
    have more : input ≠ [] := by
      rintro rfl
      rw [readFields_eq_ok_nil.mpr rfl] at h
      cases h
    rw [readFields_of_ne_nil more] at h
    split at h
    · cases h
    · rename_i g rest first
      split at h
      · cases h
      · rename_i fresh
        cases others : readFields (g.tag :: taken) rest with
        | error e =>
          rw [others] at h
          cases h
        | ok gs =>
          rw [others] at h
          cases h
          exact ⟨rest, first, fresh, others⟩
  · rintro ⟨rest, first, fresh, others⟩
    have more : input ≠ [] := by
      rintro rfl
      exact absurd (Field.length_lt_of_run_read first) (Nat.not_lt_zero _)
    rw [readFields_of_ne_nil more, first]
    simp only [fresh, if_false, others]
    rfl

/-- The fields are read iff none is too long, and no tag is taken or occurs twice. -/
theorem readFields_eq_ok {taken : List UInt16} {input : List UInt8} {fields : List Field} :
    readFields taken input = .ok fields ↔
      (∀ f ∈ fields, f.value.length ≤ Field.maxLength ∧ f.tag ∉ taken) ∧
        (fields.map (·.tag)).Nodup ∧ input = fields.flatMap Field.toBytes := by
  induction fields generalizing taken input with
  | nil => simp [readFields_eq_ok_nil]
  | cons f fields ih =>
    simp only [readFields_eq_ok_cons, Field.run_read_eq_ok, ih, List.mem_cons, not_or,
      List.map_cons, List.nodup_cons, List.flatMap_cons, forall_eq_or_imp]
    constructor
    · rintro ⟨rest, ⟨fits, rfl⟩, fresh, others, distinct, rfl⟩
      refine ⟨⟨⟨fits, fresh⟩, fun g hg => ⟨(others g hg).1, (others g hg).2.2⟩⟩, ⟨?_, distinct⟩, rfl⟩
      intro again
      obtain ⟨g, hg, same⟩ := List.mem_map.mp again
      exact (others g hg).2.1 same
    · rintro ⟨⟨⟨fits, fresh⟩, others⟩, ⟨first, distinct⟩, rfl⟩
      refine ⟨_, ⟨fits, rfl⟩, fresh, fun g hg => ⟨(others g hg).1, ?_, (others g hg).2⟩, distinct, rfl⟩
      intro same
      exact first (List.mem_map.mpr ⟨g, hg, same⟩)

/-- A byte string parses as a container iff it is the bytes of that container, the container has
the right format and device, none of its fields is too long, and its tags are distinct. -/
theorem parse_eq_ok {expected : DeviceId} {bytes : List UInt8} {c : Container} :
    parse expected bytes = .ok c ↔
      c.header.format.major = formatVersion.major ∧ c.header.device = expected ∧
        (∀ f ∈ c.fields, f.value.length ≤ Field.maxLength) ∧
          (c.fields.map (·.tag)).Nodup ∧ bytes = c.toBytes := by
  obtain ⟨header, fields⟩ := c
  have parsed : parse expected bytes = .ok ⟨header, fields⟩ ↔
      ∃ rest, (Header.read expected).run bytes = .ok header rest ∧
        readFields [] rest = .ok fields := by
    unfold parse
    cases (Header.read expected).run bytes with
    | error e rest => simp
    | ok h rest =>
      cases others : readFields [] rest <;>
        simp [others, bind, Except.bind, pure, Except.pure, and_assoc]
  rw [parsed]
  simp only [Header.run_read_eq_ok, readFields_eq_ok, List.not_mem_nil, not_false_iff, and_true,
    toBytes]
  constructor
  · rintro ⟨rest, ⟨format, device, rfl⟩, fits, distinct, rfl⟩
    exact ⟨format, device, fits, distinct, rfl⟩
  · rintro ⟨format, device, fits, distinct, rfl⟩
    exact ⟨_, ⟨format, device, rfl⟩, fits, distinct, rfl⟩

end Container

end PicCascade.Snapshot
