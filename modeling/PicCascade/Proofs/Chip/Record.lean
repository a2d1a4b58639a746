import PicCascade.Chip.Record
import PicCascade.Proofs.Snapshot.Reader

/-!
# The record of a chip

A byte string is read as the registers of a chip exactly if it is their record. In particular the
record is sixteen bytes, and a priority above 7, a stage above 3 or a mode other than 0 and 1 is
refused.

Results:
* `Registers.ofBytes_eq_ok`: which byte strings stand for which registers.
* `Registers.exists_eq_toBytes_iff`: which byte strings are records at all.
-/

namespace PicCascade

theorem InitStage.ofByte?_eq_some {b : UInt8} {stage : InitStage} :
    InitStage.ofByte? b = some stage ↔ b = stage.toByte := by
  constructor
  · intro h
    unfold InitStage.ofByte? at h
    split at h <;> cases h <;> rfl
  · rintro rfl
    exact ofByte?_toByte stage

theorem InitStage.exists_toByte_eq {b : UInt8} (known : b ≤ 3) :
    ∃ stage : InitStage, stage.toByte = b := by
  have bound : b.toNat ≤ 3 := known
  rcases (by omega : b.toNat = 0 ∨ b.toNat = 1 ∨ b.toNat = 2 ∨ b.toNat = 3) with n | n | n | n
  · exact ⟨.ready, UInt8.toNat_inj.mp n.symm⟩
  · exact ⟨.awaitingIcw2, UInt8.toNat_inj.mp n.symm⟩
  · exact ⟨.awaitingIcw3, UInt8.toNat_inj.mp n.symm⟩
  · exact ⟨.awaitingIcw4, UInt8.toNat_inj.mp n.symm⟩

theorem InitStage.toByte_le (stage : InitStage) : stage.toByte ≤ 3 := by
  cases stage <;> decide

theorem Line.ofByte?_eq_some {b : UInt8} {i : Line} :
    Line.ofByte? b = some i ↔ b = Line.toByte i := by
  constructor
  · intro h
    unfold Line.ofByte? at h
    split at h
    · cases h
      exact UInt8.ofNat_toNat.symm
    · cases h
  · rintro rfl
    exact ofByte?_toByte i

theorem Line.exists_toByte_eq {b : UInt8} (small : b ≤ 7) : ∃ i : Line, Line.toByte i = b :=
  ⟨⟨b.toNat, Nat.lt_succ_of_le small⟩, UInt8.ofNat_toNat⟩

theorem Line.toByte_lt (i : Line) : Line.toByte i < 8 := by
  revert i
  decide

namespace Registers

open Snapshot Reader

/-- The sixteen bytes of the record. -/
theorem toBytes_eq (r : Registers) :
    r.toBytes = [r.lastHigh.toByte, r.irr.toByte, r.imr.toByte, r.isr.toByte, Line.toByte r.top,
      r.base, UInt8.ofNat r.readIsr.toNat, UInt8.ofNat r.poll.toNat,
      UInt8.ofNat r.specialMask.toNat, r.stage.toByte, UInt8.ofNat r.autoEoi.toNat,
      UInt8.ofNat r.rotateOnAutoEoi.toNat, UInt8.ofNat r.specialFullyNested.toNat,
      UInt8.ofNat r.expectIcw4.toNat, UInt8.ofNat r.single.toNat, r.elcr.toByte] := by
  simp [toBytes, toItems, Item.encode, Item.toBytes, LittleEndian.ofNat]

/-- A record has been read to its end. -/
theorem run_read_eq_ok {r : Registers} {input rest : List UInt8} :
    read.run input = .ok r rest ↔ input = r.toBytes ∧ rest = [] := by
  simp only [read, run_bind_eq_ok, run_u8_eq_ok, run_bool_eq_ok, run_finish_eq_ok]
  constructor
  · rintro ⟨lastHigh, _, rfl, irr, _, rfl, imr, _, rfl, isr, _, rfl, top, _, rfl, base, _, rfl,
      readIsr, _, rfl, poll, _, rfl, specialMask, _, rfl, stage, _, rfl, autoEoi, _, rfl,
      rotateOnAutoEoi, _, rfl, specialFullyNested, _, rfl, expectIcw4, _, rfl, single, _, rfl,
      elcr, _, rfl, -, _, ⟨rfl, rfl⟩, h⟩
    cases line : Line.ofByte? top with
    | none =>
      rw [line] at h
      cases h
    | some i =>
      rw [line] at h
      cases known : InitStage.ofByte? stage with
      | none =>
        rw [known] at h
        cases h
      | some stage' =>
        rw [known] at h
        obtain ⟨rfl, rfl⟩ := run_pure_eq_ok.mp h
        cases Line.ofByte?_eq_some.mp line
        cases InitStage.ofByte?_eq_some.mp known
        simp [toBytes_eq, LittleEndian.ofNat]
  · rintro ⟨rfl, rfl⟩
    refine ⟨r.lastHigh.toByte, _, toBytes_eq r, r.irr.toByte, _, rfl, r.imr.toByte, _, rfl,
      r.isr.toByte, _, rfl, Line.toByte r.top, _, rfl, r.base, _, rfl, r.readIsr, _, rfl,
      r.poll, _, rfl, r.specialMask, _, rfl, r.stage.toByte, _, rfl, r.autoEoi, _, rfl,
      r.rotateOnAutoEoi, _, rfl, r.specialFullyNested, _, rfl, r.expectIcw4, _, rfl,
      r.single, _, rfl, r.elcr.toByte, _, rfl, (), _, ⟨rfl, rfl⟩, ?_⟩
    rw [Line.ofByte?_toByte, InitStage.ofByte?_toByte]
    exact run_pure_eq_ok.mpr ⟨rfl, rfl⟩

/-- A byte string stands for registers iff it is their record. -/
theorem ofBytes_eq_ok {r : Registers} {bytes : List UInt8} :
    ofBytes bytes = .ok r ↔ bytes = r.toBytes := by
  have returned : ofBytes bytes = .ok r ↔ ∃ rest, read.run bytes = .ok r rest := by
    unfold ofBytes value
    cases read.run bytes <;> simp
  simp [returned, run_read_eq_ok]

/-! ## Byte strings that are records -/

/-- Sixteen bytes, among them a line, a stage and eight modes. -/
structure IsRecord (bytes : List UInt8) : Prop where
  length : bytes.length = 16
  top : bytes.getD 4 0 ≤ 7
  stage : bytes.getD 9 0 ≤ 3
  modes : ∀ i ∈ [6, 7, 8, 10, 11, 12, 13, 14], bytes.getD i 0 ≤ 1

theorem mode_byte {b : UInt8} (mode : b ≤ 1) : UInt8.ofNat (decide (b = 1)).toNat = b := by
  rcases eq_zero_or_eq_one mode with rfl | rfl <;> rfl

theorem mode_byte_le (mode : Bool) : UInt8.ofNat mode.toNat ≤ 1 := by
  cases mode <;> decide

theorem isRecord_toBytes (r : Registers) : IsRecord r.toBytes := by
  rw [toBytes_eq]
  refine ⟨rfl, Nat.le_of_lt_succ (Line.toByte_lt r.top), r.stage.toByte_le, ?_⟩
  intro i hi
  simp only [List.mem_cons, List.not_mem_nil, or_false] at hi
  rcases hi with rfl | rfl | rfl | rfl | rfl | rfl | rfl | rfl
  all_goals exact mode_byte_le _

/-- A byte string is a record of registers iff it has the length of one and the line, the stage and
the modes in it are in range. -/
theorem exists_eq_toBytes_iff {bytes : List UInt8} :
    (∃ r : Registers, bytes = r.toBytes) ↔ IsRecord bytes := by
  constructor
  · rintro ⟨r, rfl⟩
    exact isRecord_toBytes r
  · intro h
    have spelled : bytes = (List.range 16).map fun i => bytes.getD i 0 := by
      apply List.ext_getElem
      · simp [h.length]
      · intro i within _
        simp [within]
    obtain ⟨stage, known⟩ := InitStage.exists_toByte_eq h.stage
    obtain ⟨top, number⟩ := Line.exists_toByte_eq h.top
    refine ⟨{
      lastHigh := .ofByte (bytes.getD 0 0), irr := .ofByte (bytes.getD 1 0)
      imr := .ofByte (bytes.getD 2 0), isr := .ofByte (bytes.getD 3 0)
      top, base := bytes.getD 5 0
      readIsr := bytes.getD 6 0 = 1, poll := bytes.getD 7 0 = 1
      specialMask := bytes.getD 8 0 = 1, stage
      autoEoi := bytes.getD 10 0 = 1, rotateOnAutoEoi := bytes.getD 11 0 = 1
      specialFullyNested := bytes.getD 12 0 = 1, expectIcw4 := bytes.getD 13 0 = 1
      single := bytes.getD 14 0 = 1, elcr := .ofByte (bytes.getD 15 0) }, spelled.trans ?_⟩
    rw [toBytes_eq]
    simp only [LineSet.toByte_ofByte, number, known,
      mode_byte (h.modes 6 (by decide)), mode_byte (h.modes 7 (by decide)),
      mode_byte (h.modes 8 (by decide)), mode_byte (h.modes 10 (by decide)),
      mode_byte (h.modes 11 (by decide)), mode_byte (h.modes 12 (by decide)),
      mode_byte (h.modes 13 (by decide)), mode_byte (h.modes 14 (by decide))]
    rfl

end Registers

end PicCascade
