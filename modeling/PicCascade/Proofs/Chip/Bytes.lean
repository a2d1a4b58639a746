import PicCascade.Chip.Bytes
import PicCascade.Proofs.Chip.Output
import PicCascade.Proofs.Chip.Record

/-!
# The chip on bytes never faults

On a register file that stands for registers, the checked arithmetic of the chip on bytes stays in
range, and every operation gives the register file of what the operation on registers gives.

Results:
* `RegisterFile.scan?_eq`: the search for the first line of a mask stops at its rank.
* `RegisterFile.pending?_bytes`: arbitration on bytes offers the same line.
* `ByteChip.setLine?_bytes`, `acknowledge?_bytes`, `retire?_bytes`, `reset?_bytes`,
  `coldReset?_bytes`, `writeCommand?_bytes`, `writeData?_bytes`, `load?_bytes`: no operation of a
  chip faults.
-/

namespace PicCascade

open Checked

/-! ## Lines, commands and sets of lines as bytes -/

/-- The number in the top three bits of a byte. -/
theorem Command.shiftRight_five (value : UInt8) :
    value >>> 5 = UInt8.ofNat
      (4 * (bit value 7).toNat + 2 * (bit value 6).toNat + (bit value 5).toNat) := by
  have all : ∀ k : Fin 256, (UInt8.ofNat k) >>> 5 = UInt8.ofNat
      (4 * (bit (UInt8.ofNat k) 7).toNat + 2 * (bit (UInt8.ofNat k) 6).toNat +
        (bit (UInt8.ofNat k) 5).toNat) := by decide +kernel
  simpa using all ⟨value.toNat, value.toNat_lt⟩

namespace Line

/-- The mask of a line. -/
def mask (i : Line) : UInt8 := ⟨BitVec.twoPow 8 i⟩

theorem toByte_inj {i j : Line} : toByte i = toByte j ↔ i = j := by
  refine ⟨fun same => ?_, fun same => same ▸ rfl⟩
  rw [← ofByte_toByte i, same, ofByte_toByte]

theorem bit?_toByte (i : Line) : bit? (toByte i) = some i.mask := by
  revert i
  decide

theorem one_shiftLeft (i : Line) : 1 <<< toByte i = i.mask := by
  revert i
  decide

theorem toByte_and_seven (i : Line) : toByte i &&& 7 = toByte i := by
  revert i
  decide

theorem toByte_le (i : Line) : toByte i ≤ 7 := Nat.le_of_lt_succ (toByte_lt i)

theorem toByte_ne_eight (i : Line) : toByte i ≠ 8 := UInt8.ne_of_lt (toByte_lt i)

theorem toByte_next (i : Line) : (toByte i + 1) &&& 7 = toByte (next i) := by
  revert i
  decide

theorem toNat_and_seven (b : UInt8) : (b &&& 7).toNat = b.toNat % 8 :=
  Nat.and_two_pow_sub_one_eq_mod b.toNat 3

theorem toNat_toByte (i : Line) : (toByte i).toNat = i.val :=
  Nat.mod_eq_of_lt (Nat.lt_trans i.isLt (by decide))

/-- The low three bits of a byte are the number of the line that they name. -/
theorem toByte_ofByte (b : UInt8) : toByte (ofByte b) = b &&& 7 := by
  apply UInt8.toNat_inj.mp
  rw [toNat_toByte, toNat_and_seven]
  rfl

/-- The sum may wrap: 256 is a multiple of 8. -/
theorem toByte_next_ofByte (b : UInt8) : toByte (next (ofByte b)) = (b + 1) &&& 7 := by
  rw [← toByte_next, toByte_ofByte]
  apply UInt8.toNat_inj.mp
  rw [toNat_and_seven, toNat_and_seven, UInt8.toNat_add, UInt8.toNat_add, toNat_and_seven,
    UInt8.toNat_one]
  omega

theorem ofGlobal_eq (n : UInt8) :
    ofGlobal n = (if n >>> 3 = 0 then .primary else .secondary, ofByte n) := by
  have high : (n >>> 3).toNat = n.toNat / 8 := Nat.shiftRight_eq_div_pow n.toNat 3
  have first : n >>> 3 = 0 ↔ n < 8 := by
    rw [← UInt8.toNat_inj, UInt8.lt_iff_toNat_lt, high]
    exact Nat.div_eq_zero_iff_lt (by decide)
  simp only [ofGlobal, first]

theorem add?_toByte_one (i : Line) : add? (toByte i) 1 = some (toByte i + 1) := by
  revert i
  decide

theorem add?_toByte_eight (i : Line) : add? (toByte i) 8 = some (global .secondary i) := by
  revert i
  decide

theorem add?_toByte (i j : Line) : add? (toByte i) (toByte j) = some (toByte i + toByte j) := by
  revert i j
  decide

/-- The distance of a line from the line with the highest priority leads back to the line. -/
theorem rank_add_top (top i : Line) : (toByte (rank top i) + toByte top) &&& 7 = toByte i := by
  revert top i
  decide

/-- One line further the distance is larger by 1. -/
theorem add?_rank_one {top i : Line} (below : (rank top i).val < 7) :
    add? (toByte (rank top i)) 1 = some (toByte (rank top (next i))) ∧
      (rank top (next i)).val = (rank top i).val + 1 := by
  revert top i
  decide

theorem rank_self (top : Line) : (rank top top).val = 0 := by
  revert top
  decide

theorem toByte_lt_toByte {i j : Line} : toByte i < toByte j ↔ i.val < j.val := by
  revert i j
  decide

end Line

namespace LineSet

variable {i : Line} {s : LineSet 8}

theorem toByte_eq_zero : s.toByte = 0 ↔ s = ∅ := by
  refine ⟨fun zero => ?_, fun empty => empty ▸ rfl⟩
  rw [← ofByte_toByte s, zero]
  rfl

theorem and_mask_eq_zero : s.toByte &&& i.mask = 0 ↔ i ∉ s := by
  have nonzero : BitVec.twoPow 8 i ≠ 0#8 := by
    revert i
    decide
  have bits : s.toByte &&& i.mask = 0 ↔ s.bits &&& BitVec.twoPow 8 i = 0#8 :=
    UInt8.toBitVec_inj.symm
  rw [bits, BitVec.and_twoPow, mem_def, BitVec.getLsbD_eq_getElem i.isLt]
  simp [nonzero]

end LineSet

/-! ## Arbitration -/

namespace RegisterFile

/-- From the distance of some line that is no further away, the search stops at the first line of
the set. -/
theorem scan?_eq {top i : Line} {s : LineSet 8} (first : s.highest? top = some i) {j : Line}
    (h : (Line.rank top j).val ≤ (Line.rank top i).val) :
    scan? s.toByte (Line.toByte top) (Line.toByte (Line.rank top j)) =
      some (Line.toByte (Line.rank top i)) := by
  obtain ⟨present, least⟩ := LineSet.highest?_eq_some_iff.mp first
  rw [scan?, Line.add?_toByte, Option.bind_eq_bind, Option.bind_some, Line.rank_add_top,
    Line.bit?_toByte, Option.bind_some]
  by_cases member : j ∈ s
  · have same : Line.rank top j = Line.rank top i := Fin.ext (Nat.le_antisymm h (least j member))
    rw [if_neg fun zero => LineSet.and_mask_eq_zero.mp zero member, same]
  · have below : (Line.rank top j).val < (Line.rank top i).val := by
      refine Nat.lt_of_le_of_ne h fun same => member ?_
      rw [Line.rank_inj.mp (Fin.ext same)]
      exact present
    have bound := (Line.rank top i).isLt
    have within : (Line.rank top j).val < 7 := by omega
    obtain ⟨counted, larger⟩ := Line.add?_rank_one within
    rw [if_pos (LineSet.and_mask_eq_zero.mpr member)]
    split
    · rename_i fault
      cases counted.symm.trans fault
    · rename_i further found
      rw [counted] at found
      cases found
      exact scan?_eq first (by omega)
termination_by (Line.rank top i).val - (Line.rank top j).val

variable {position : Position} (r : Registers)

/-- The distance of the line with the highest priority, and 8 if there is none. -/
theorem distance?_bytes (s : LineSet 8) :
    r.bytes.distance? s.toByte =
      some (((s.highest? r.top).map fun i => Line.toByte (Line.rank r.top i)).getD 8) := by
  unfold distance?
  cases first : s.highest? r.top with
  | none =>
    rw [if_pos (LineSet.toByte_eq_zero.mpr (LineSet.highest?_eq_none_iff.mp first))]
    rfl
  | some i =>
    have present := (LineSet.highest?_eq_some_iff.mp first).1
    have nonempty : s.toByte ≠ 0 := fun zero => by
      rw [LineSet.toByte_eq_zero.mp zero] at present
      exact LineSet.not_mem_empty i present
    have start : Line.toByte (Line.rank r.top r.top) = 0 :=
      congrArg UInt8.ofNat (Line.rank_self r.top)
    rw [if_neg nonempty, ← start]
    exact scan?_eq first (by rw [Line.rank_self]; exact Nat.zero_le _)

theorem blocking?_bytes : r.bytes.blocking? position = some (r.blocking position).toByte := by
  have unmasked : (if r.bytes.specialMask then r.bytes.isr &&& ~~~r.bytes.imr else r.bytes.isr) =
      (if r.specialMask then r.isr \ r.imr else r.isr).toByte := by
    show (if r.specialMask then _ else _) = _
    split <;> rfl
  unfold blocking? Registers.blocking
  dsimp only
  rw [unmasked, Line.bit?_toByte]
  show (if r.specialFullyNested && position = .primary then _ else _) = _
  split <;> rfl

theorem rotated?_bytes (i : Line) (rotate : Bool) :
    r.bytes.rotated? (Line.toByte i) rotate =
      some (Line.toByte (if rotate then Line.next i else r.top)) := by
  unfold rotated?
  rw [Line.add?_toByte_one, Option.bind_eq_bind, Option.bind_some, Line.toByte_next]
  cases rotate <;> rfl

theorem afterIcw2_bytes :
    r.bytes.afterIcw2 = (if r.single then Chip.afterIcw3 r else .awaitingIcw3).toByte := by
  have single : r.bytes.single = r.single := rfl
  have expects : r.bytes.expectIcw4 = r.expectIcw4 := rfl
  unfold afterIcw2 Chip.afterIcw3
  rw [single, expects]
  cases r.single <;> cases r.expectIcw4 <;> rfl

theorem afterIcw3_bytes : r.bytes.afterIcw3 = (Chip.afterIcw3 r).toByte := by
  unfold Chip.afterIcw3
  show (if r.expectIcw4 then _ else _) = _
  split <;> rfl

/-- Arbitration on bytes offers the same line. -/
theorem pending?_bytes :
    r.bytes.pending? position = some ((r.pending? position).map Line.toByte) := by
  have candidates : r.bytes.irr &&& ~~~r.bytes.imr = r.candidates.toByte := rfl
  unfold pending? Registers.pending?
  rw [candidates, distance?_bytes, blocking?_bytes]
  cases r.candidates.highest? r.top with
  | none => rfl
  | some i =>
    have top : r.bytes.top = Line.toByte r.top := rfl
    have outranks :
        Line.toByte (Line.rank r.top i) <
            (((r.blocking position).highest? r.top).map fun j =>
              Line.toByte (Line.rank r.top j)).getD 8 ↔
          (((r.blocking position).highest? r.top).all fun j =>
            (Line.rank r.top i).val < (Line.rank r.top j).val) = true := by
      cases (r.blocking position).highest? r.top with
      | none => exact iff_of_true (Line.toByte_lt _) rfl
      | some j =>
        rw [Option.all_some, decide_eq_true_iff]
        exact Line.toByte_lt_toByte
    simp only [Option.map_some, Option.getD_some, Option.bind_eq_bind, Option.bind_some,
      Line.toByte_ne_eight, if_false, distance?_bytes, outranks, top, Line.add?_toByte,
      Line.rank_add_top]
    rw [Option.filter_some]
    split <;> rfl

-- Out of range it is not so: the search for line 0 goes up to the sum 7 + 249.
example : pending? .primary { irr := 1, top := 249 } = none := by cbv

end RegisterFile

/-! ## The operations of a chip -/

namespace ByteChip

variable {position : Position} (c : Chip position)

theorem refresh?_bytes : c.bytes.refresh? = some c.refresh.bytes := by
  have offered : c.bytes.pending? = some (c.pending?.map Line.toByte) :=
    RegisterFile.pending?_bytes c.regs
  unfold refresh?
  rw [offered, Option.bind_eq_bind, Option.bind_some, Option.isSome_map]
  rfl

/-- Replacing the registers and recomputing the output cannot fault, as long as the new register
file stands for registers. -/
theorem refresh?_withRegs {f : Registers → Registers} {r : RegisterFile}
    (h : r = (f c.regs).bytes) :
    (c.bytes.withRegs r).refresh? = some (c.modify f).refresh.bytes := by
  subst h
  exact refresh?_bytes (c.modify f)

theorem setLine?_bytes (i : Line) (level : Bool) :
    c.bytes.setLine? (Line.toByte i) level = some (c.setLine i level).bytes := by
  unfold setLine?
  rw [Line.toByte_and_seven, Line.bit?_toByte]
  refine refresh?_withRegs c ?_
  have elcr : c.bytes.regs.elcr &&& i.mask ≠ 0 ↔ i ∈ c.regs.elcr := by
    show ¬ c.regs.elcr.toByte &&& i.mask = 0 ↔ _
    rw [LineSet.and_mask_eq_zero, Classical.not_not]
  have high : c.bytes.regs.lastHigh &&& i.mask = 0 ↔ i ∉ c.regs.lastHigh :=
    LineSet.and_mask_eq_zero
  by_cases sensitive : i ∈ c.regs.elcr
  · rw [if_pos (elcr.mpr sensitive)]
    cases level with
    | false => simp only [sensitive, if_true]; rfl
    | true => simp only [sensitive, if_true]; rfl
  · rw [if_neg (mt elcr.mp sensitive)]
    cases level with
    | false => simp only [sensitive, if_false]; rfl
    | true =>
      by_cases risen : i ∈ c.regs.lastHigh
      · simp only [sensitive, high, risen, if_false]; rfl
      · simp only [sensitive, high, risen, if_false]; rfl

theorem acknowledge?_bytes (i : Line) :
    c.bytes.acknowledge? (Line.toByte i) = some (c.acknowledge i).bytes := by
  have regs : c.bytes.regs = c.regs.bytes := rfl
  have isr : (if c.regs.bytes.autoEoi then c.regs.bytes.isr else c.regs.bytes.isr ||| i.mask) =
      (if c.regs.autoEoi then c.regs.isr else c.regs.isr.insert i).toByte := by
    show (if c.regs.autoEoi then _ else _) = _
    split <;> rfl
  have irr : (if c.regs.bytes.elcr &&& i.mask = 0 then c.regs.bytes.irr &&& ~~~i.mask
      else c.regs.bytes.irr) =
      (if i ∈ c.regs.elcr then c.regs.irr else c.regs.irr.erase i).toByte := by
    have edge : c.regs.bytes.elcr &&& i.mask = 0 ↔ i ∉ c.regs.elcr := LineSet.and_mask_eq_zero
    simp only [edge, ite_not]
    split <;> rfl
  unfold acknowledge?
  dsimp only
  rw [Line.toByte_and_seven, Line.bit?_toByte, regs, RegisterFile.rotated?_bytes,
    Option.bind_eq_bind, Option.bind_some, Option.bind_some, isr, irr]
  exact refresh?_withRegs c rfl

theorem retire?_bytes (i : Line) :
    c.bytes.retire? (Line.toByte i) = some (c.retire i).bytes := by
  unfold retire?
  rw [Line.bit?_toByte]
  rfl

theorem endService?_bytes (i : Line) (rotate : Bool) :
    c.bytes.endService? (Line.toByte i) rotate = some (c.endService i rotate).bytes := by
  have regs : c.bytes.regs = c.regs.bytes := rfl
  unfold endService?
  dsimp only
  rw [Line.bit?_toByte, regs, RegisterFile.rotated?_bytes]
  exact refresh?_withRegs c rfl

theorem reset?_bytes : c.bytes.reset? = some c.reset.bytes := refresh?_withRegs c rfl

theorem coldReset?_bytes : c.bytes.coldReset? = some c.coldReset.bytes := by
  unfold coldReset?
  rw [reset?_bytes]
  rfl

theorem endHighest?_bytes (rotate : Bool) :
    c.bytes.endHighest? rotate = some (c.execute (.endHighest rotate)).bytes := by
  have isr : c.bytes.regs.isr = c.regs.isr.toByte := rfl
  have regs : c.bytes.regs = c.regs.bytes := rfl
  unfold endHighest? Chip.execute
  rw [isr, regs, RegisterFile.distance?_bytes]
  cases c.regs.isr.highest? c.regs.top with
  | none => rfl
  | some i =>
    have top : c.regs.bytes.top = Line.toByte c.regs.top := rfl
    simp only [Option.map_some, Option.getD_some, Option.bind_eq_bind, Option.bind_some,
      Line.toByte_ne_eight, if_false, top, Line.add?_toByte, Line.rank_add_top]
    exact endService?_bytes c i rotate

theorem setLowest?_bytes (value : UInt8) :
    (c.bytes.withRegs { c.regs.bytes with top := (value + 1) &&& 7 }).refresh? =
      some (c.execute (.setLowest (Line.ofByte value))).bytes := by
  have next : { c.regs.bytes with top := (value + 1) &&& 7 } =
      { c.regs.bytes with top := Line.toByte (Line.next (Line.ofByte value)) } := by
    rw [Line.toByte_next_ofByte]
  exact refresh?_withRegs c next

theorem writeOcw2?_bytes {value : UInt8} (notIcw1 : Command.bit value 4 = false)
    (notOcw3 : Command.bit value 3 = false) :
    c.bytes.writeOcw2? value = some (c.writeCommand value).bytes := by
  have line (rotate : Bool) : c.bytes.endService? (value &&& 7) rotate =
      some (c.endService (Line.ofByte value) rotate).bytes := by
    rw [← Line.toByte_ofByte]
    exact endService?_bytes c (Line.ofByte value) rotate
  unfold writeOcw2? Chip.writeCommand Command.decode
  rw [notIcw1, notOcw3, Command.shiftRight_five]
  -- One case for each command that the top three bits tell.
  cases Command.bit value 7 with
  | false =>
    cases Command.bit value 6 with
    | false =>
      cases Command.bit value 5 with
      | false => rfl
      | true => exact endHighest?_bytes c false
    | true =>
      cases Command.bit value 5 with
      | false => rfl
      | true => exact line false
  | true =>
    cases Command.bit value 6 with
    | false =>
      cases Command.bit value 5 with
      | false => rfl
      | true => exact endHighest?_bytes c true
    | true =>
      cases Command.bit value 5 with
      | false => exact setLowest?_bytes c value
      | true => exact line true

theorem writeCommand?_bytes (value : UInt8) :
    c.bytes.writeCommand? value = some (c.writeCommand value).bytes := by
  unfold writeCommand?
  cases icw1 : Command.bit value 4 with
  | true =>
    rw [if_pos rfl, reset?_bytes]
    unfold Chip.writeCommand Command.decode
    rw [icw1]
    rfl
  | false =>
    cases ocw3 : Command.bit value 3 with
    | true =>
      unfold Chip.writeCommand Command.decode
      rw [icw1, ocw3]
      cases Command.bit value 1 <;> cases Command.bit value 6 <;> rfl
    | false => exact writeOcw2?_bytes c icw1 ocw3

theorem writeData?_bytes (value : UInt8) :
    c.bytes.writeData? value = some (c.writeData value).bytes := by
  have regs : c.bytes.regs = c.regs.bytes := rfl
  have number : c.regs.bytes.stage = c.regs.stage.toByte := rfl
  unfold writeData? Chip.writeData
  dsimp only
  rw [regs, number]
  cases stage : c.regs.stage with
  | ready =>
    refine refresh?_withRegs c ?_
    rw [← stage]
    rfl
  | awaitingIcw2 =>
    rw [RegisterFile.afterIcw2_bytes]
    rfl
  | awaitingIcw3 =>
    rw [RegisterFile.afterIcw3_bytes]
    rfl
  | awaitingIcw4 => rfl

theorem load?_bytes (writable : LineSet 8) (r : Registers) :
    c.bytes.load? writable.toByte r.bytes =
      some (c.modify fun _ => { r with elcr := r.elcr ∩ writable }).refresh.bytes :=
  refresh?_withRegs c rfl

end ByteChip

end PicCascade
