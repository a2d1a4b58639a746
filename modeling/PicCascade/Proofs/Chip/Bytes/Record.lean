import PicCascade.Chip.Bytes.Record
import PicCascade.Proofs.Chip.Bytes

/-!
# The record of a register file is exact

Reading a record as registers and reading it as a register file differ in what they make of the same
sixteen bytes, and in nothing else: they refuse the same byte strings, for the same reasons. So what is
known of the record of registers carries over, and a register file is found again from its record iff
it stands for registers.

Results:
* `Registers.bytes_map_read`: the two readers agree.
* `exists_bytes_eq_iff`: which register files stand for registers.
* `ofBytes_eq_ok`: which byte strings are read as which register files.
* `record_exact`: the record and the register file determine each other, and no other byte string is
  accepted.
-/

namespace PicCascade

open Snapshot

namespace Snapshot.Reader

variable {α β : Type}

/-- A condition that does not hold ends the reading. -/
theorem require_bind_of_not {condition : Prop} [Decidable condition] (fails : ¬ condition)
    (error : Error) (next : Unit → Reader α) :
    (require condition error >>= next) = throw error := by
  rw [require, if_neg fails]
  rfl

theorem require_bind_of {condition : Prop} [Decidable condition] (holds : condition)
    (error : Error) (next : Unit → Reader α) :
    (require condition error >>= next) = next () := by
  rw [require, if_pos holds]
  rfl

theorem value_map (f : α → β) (reader : Reader α) (input : List UInt8) :
    (f <$> reader).value input = (reader.value input).map f := by
  rw [value, value, map_eq_pure_bind, EStateM.run_bind]
  cases reader.run input <;> rfl

end Snapshot.Reader

open Reader

/-! ## Register files that stand for registers -/

theorem Line.ofByte?_eq_none {b : UInt8} (large : ¬ b ≤ 7) : Line.ofByte? b = none :=
  dif_neg fun small => large (Nat.le_of_lt_succ small)

theorem InitStage.ofByte?_eq_none {b : UInt8} (unknown : ¬ b ≤ 3) : InitStage.ofByte? b = none := by
  cases known : InitStage.ofByte? b with
  | none => rfl
  | some stage =>
    rw [InitStage.ofByte?_eq_some.mp known] at unknown
    exact absurd stage.toByte_le unknown

/-- A register file stands for registers iff its priority is a line and its stage exists. -/
theorem RegisterFile.exists_bytes_eq_iff {s : RegisterFile} :
    (∃ r : Registers, r.bytes = s) ↔ s.top ≤ 7 ∧ s.stage ≤ 3 := by
  constructor
  · rintro ⟨r, rfl⟩
    exact ⟨Line.toByte_le r.top, r.stage.toByte_le⟩
  · rintro ⟨small, known⟩
    obtain ⟨stage, number⟩ := InitStage.exists_toByte_eq known
    obtain ⟨top, line⟩ := Line.exists_toByte_eq small
    refine ⟨{
      lastHigh := .ofByte s.lastHigh, irr := .ofByte s.irr, imr := .ofByte s.imr
      isr := .ofByte s.isr, top, base := s.base, readIsr := s.readIsr
      poll := s.poll, specialMask := s.specialMask, stage, autoEoi := s.autoEoi
      rotateOnAutoEoi := s.rotateOnAutoEoi, specialFullyNested := s.specialFullyNested
      expectIcw4 := s.expectIcw4, single := s.single, elcr := .ofByte s.elcr }, ?_⟩
    unfold Registers.bytes
    simp only [line, number, LineSet.toByte_ofByte]

namespace Registers

theorem toBytes_bytes (r : Registers) : r.bytes.toBytes = r.toBytes := rfl

/-- Reading registers and reading a register file agree, on errors and on what is left as well. -/
theorem bytes_map_read : Registers.bytes <$> Registers.read = RegisterFile.read := by
  unfold Registers.read RegisterFile.read
  simp only [map_bind]
  refine bind_congr fun lastHigh => bind_congr fun irr => bind_congr fun imr => bind_congr fun isr =>
    bind_congr fun top => bind_congr fun base => bind_congr fun readIsr => bind_congr fun poll =>
    bind_congr fun specialMask => bind_congr fun stage => bind_congr fun autoEoi =>
    bind_congr fun rotateOnAutoEoi => bind_congr fun specialFullyNested =>
    bind_congr fun expectIcw4 => bind_congr fun single => bind_congr fun elcr =>
    bind_congr fun _ => ?_
  -- Only the last two checks are worded differently.
  by_cases small : top ≤ 7
  · obtain ⟨i, rfl⟩ := Line.exists_toByte_eq small
    rw [require_bind_of small, Line.ofByte?_toByte]
    by_cases known : stage ≤ 3
    · obtain ⟨stage', rfl⟩ := InitStage.exists_toByte_eq known
      rw [require_bind_of known, InitStage.ofByte?_toByte]
      rfl
    · rw [require_bind_of_not known, InitStage.ofByte?_eq_none known]
      rfl
  · rw [require_bind_of_not small, Line.ofByte?_eq_none small]
    rfl

end Registers

namespace RegisterFile

theorem ofBytes_eq_map (bytes : List UInt8) :
    ofBytes bytes = (Registers.ofBytes bytes).map Registers.bytes := by
  rw [ofBytes, ← Registers.bytes_map_read, value_map, Registers.ofBytes]

/-- A byte string is read as a register file iff it is its record and the register file stands for
registers. -/
theorem ofBytes_eq_ok {bytes : List UInt8} {s : RegisterFile} :
    ofBytes bytes = .ok s ↔ s.toBytes = bytes ∧ s.top ≤ 7 ∧ s.stage ≤ 3 := by
  have mapped : ofBytes bytes = .ok s ↔ ∃ r, Registers.ofBytes bytes = .ok r ∧ r.bytes = s := by
    rw [ofBytes_eq_map]
    cases Registers.ofBytes bytes <;> simp [Except.map]
  rw [mapped, ← exists_bytes_eq_iff]
  constructor
  · rintro ⟨r, read, rfl⟩
    exact ⟨(Registers.ofBytes_eq_ok.mp read).symm, r, rfl⟩
  · rintro ⟨rfl, r, rfl⟩
    exact ⟨r, Registers.ofBytes_eq_ok.mpr r.toBytes_bytes, rfl⟩

/-- A byte string is read as some register file iff it has the length of a record and the line, the
stage and the modes in it are in range. -/
theorem exists_ofBytes_eq_ok_iff {bytes : List UInt8} :
    (∃ s, ofBytes bytes = .ok s) ↔ Registers.IsRecord bytes := by
  rw [← Registers.exists_eq_toBytes_iff]
  constructor
  · rintro ⟨s, read⟩
    obtain ⟨rfl, inRange⟩ := ofBytes_eq_ok.mp read
    obtain ⟨r, rfl⟩ := exists_bytes_eq_iff.mpr inRange
    exact ⟨r, r.toBytes_bytes⟩
  · rintro ⟨r, rfl⟩
    exact ⟨r.bytes, ofBytes_eq_ok.mpr ⟨rfl, exists_bytes_eq_iff.mp ⟨r, rfl⟩⟩⟩

/-- The record is exact. A byte string is read as a register file iff it is the record of that register
file and the priority and the stage in it are in range. So exactly these register files are found
again, in every field, and exactly the strings of sixteen bytes with such a priority and stage and with
modes that are 0 or 1 are accepted. Reading and writing registers is the same, with other names for
what was read. -/
theorem record_exact :
    (∀ bytes s, ofBytes bytes = .ok s ↔ s.toBytes = bytes ∧ s.top ≤ 7 ∧ s.stage ≤ 3) ∧
      (∀ s, ofBytes s.toBytes = .ok s ↔ s.top ≤ 7 ∧ s.stage ≤ 3) ∧
      (∀ bytes, (∃ s, ofBytes bytes = .ok s) ↔ Registers.IsRecord bytes) ∧
      (∀ bytes, ofBytes bytes = (Registers.ofBytes bytes).map Registers.bytes) ∧
      ∀ r : Registers, r.bytes.toBytes = r.toBytes := by
  refine ⟨fun bytes s => ofBytes_eq_ok, fun s => ?_, fun bytes => exists_ofBytes_eq_ok_iff,
    ofBytes_eq_map, Registers.toBytes_bytes⟩
  rw [ofBytes_eq_ok]
  exact and_iff_right rfl

end RegisterFile

end PicCascade
