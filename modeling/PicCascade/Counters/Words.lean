import PicCascade.Counters

/-!
# Edge counters in words

The counters of `PicCascade.Counters` can grow without bound. Here each is a word of 64 bits, and a
count that exceeds a word is a fault: there is no result then. The levels of the lines are the bits of
a word, and only the low four bits of a line number are looked at.

Results:
* `WordCounters.record?_words`: as long as the count fits a word, the counters in words count the same.
-/

namespace PicCascade

/-- The counters and the levels of the lines, in words (`IrqStats`). -/
structure WordCounters where
  enabled : Bool
  levels : UInt16 := 0
  counts : Vector UInt64 16 := Vector.replicate 16 0
deriving DecidableEq

namespace WordCounters

/-- One more, unless this exceeds a word. -/
def increment? (count : UInt64) : Option UInt64 :=
  if count.toNat + 1 < UInt64.size then some (count + 1) else none

theorem and_fifteen_lt (n : UInt8) : (n &&& 15).toNat < 16 := by
  rw [UInt8.toNat_and]
  exact Nat.lt_succ_of_le Nat.and_le_right

/-- Takes note of the level of a line. -/
def record? (c : WordCounters) (n : UInt8) (level : Bool) : Option WordCounters :=
  let i := n &&& 15
  have within : i.toNat < 16 := and_fifteen_lt n
  let bit : UInt16 := 1 <<< i.toUInt16
  let levels := if level then c.levels ||| bit else c.levels &&& ~~~bit
  if c.enabled && level && c.levels &&& bit = 0 then do
    let count ← increment? c.counts[i.toNat]
    return { c with levels, counts := c.counts.set i.toNat count }
  else some { c with levels }

/-- How often a line has risen. There is nothing to count for a number above 15. -/
def count (c : WordCounters) (n : UInt8) : UInt64 := c.counts[n.toNat]?.getD 0

/-- Sets all counts to zero (`clear_counts`). -/
def clear (c : WordCounters) : WordCounters := { c with counts := Vector.replicate 16 0 }

end WordCounters

namespace Counters

/-- The counters in words that stand for the counters. -/
def words (c : Counters) : WordCounters where
  enabled := c.enabled
  levels := ⟨c.high.bits⟩
  counts := c.counts.map UInt64.ofNat

end Counters

/-! ## Counting in words -/

theorem Counters.words_blank (on : Bool) : Counters.words { enabled := on } = { enabled := on } := by
  have zeros : (Vector.replicate 16 0).map UInt64.ofNat = Vector.replicate 16 0 :=
    Vector.map_replicate
  exact congrArg (WordCounters.mk on 0) zeros

theorem Counters.words_clear (c : Counters) : c.clear.words = c.words.clear := by
  have zeros : (Vector.replicate 16 0).map UInt64.ofNat = Vector.replicate 16 0 :=
    Vector.map_replicate
  exact congrArg (WordCounters.mk c.enabled c.words.levels) zeros

namespace WordCounters

theorem and_fifteen {n : UInt8} (line : n.toNat < 16) : n &&& 15 = n := by
  apply UInt8.toNat_inj.mp
  rw [UInt8.toNat_and]
  exact (Nat.and_two_pow_sub_one_eq_mod n.toNat 4).trans (Nat.mod_eq_of_lt line)

theorem bit_eq {n : UInt8} (line : n.toNat < 16) :
    (1 : UInt16) <<< n.toUInt16 = ⟨BitVec.twoPow 16 n.toNat⟩ := by
  have all : ∀ k : Fin 16, (1 : UInt16) <<< (UInt8.ofNat k).toUInt16 = ⟨BitVec.twoPow 16 k⟩ := by
    decide
  simpa using all ⟨n.toNat, line⟩

/-- The bit of a line is set iff the line is high. -/
theorem levels_and_bit_eq_zero {c : Counters} {i : Fin 16} :
    c.words.levels &&& ⟨BitVec.twoPow 16 i⟩ = 0 ↔ i ∉ c.high := by
  have nonzero : BitVec.twoPow 16 i ≠ 0#16 := by
    revert i
    decide
  have bits : c.words.levels &&& ⟨BitVec.twoPow 16 i⟩ = 0 ↔
      c.high.bits &&& BitVec.twoPow 16 i = 0#16 := UInt16.toBitVec_inj.symm
  rw [bits, BitVec.and_twoPow, LineSet.mem_def, BitVec.getLsbD_eq_getElem i.isLt]
  simp [nonzero]

theorem levels_record (c : Counters) (i : Fin 16) (level : Bool) :
    (c.record i level).words.levels =
      if level then c.words.levels ||| ⟨BitVec.twoPow 16 i⟩
      else c.words.levels &&& ~~~⟨BitVec.twoPow 16 i⟩ := by
  cases level with
  | false => rfl
  | true => rfl

theorem increment?_ofNat {count : Nat} (fits : count + 1 < UInt64.size) :
    increment? (UInt64.ofNat count) = some (UInt64.ofNat (count + 1)) := by
  have small : (UInt64.ofNat count).toNat = count :=
    UInt64.toNat_ofNat_of_lt' (Nat.lt_of_succ_lt fits)
  rw [increment?, small, if_pos fits, UInt64.ofNat_add]
  rfl

/-- If the count fits a word, counting in words is the same. -/
theorem record?_words {c : Counters} {n : UInt8} {level : Bool} (line : n.toNat < 16)
    (fits : (c.record ⟨n.toNat, line⟩ level).counts[n.toNat] < UInt64.size) :
    c.words.record? n level = some (c.record ⟨n.toNat, line⟩ level).words := by
  have levels := levels_record c ⟨n.toNat, line⟩ level
  have low := levels_and_bit_eq_zero (c := c) (i := ⟨n.toNat, line⟩)
  have enabled : c.words.enabled = c.enabled := rfl
  simp only [record?, and_fifteen line, bit_eq line, low, ← levels, enabled]
  by_cases counts : c.enabled && level && decide (⟨n.toNat, line⟩ ∉ c.high)
  · have counted : (c.record ⟨n.toNat, line⟩ level).counts =
        c.counts.set n.toNat (c.counts[n.toNat] + 1) := if_pos counts
    have word : c.words.counts[n.toNat] = UInt64.ofNat c.counts[n.toNat] := Vector.getElem_map ..
    have words : (c.record ⟨n.toNat, line⟩ level).words.counts =
        c.words.counts.set n.toNat (UInt64.ofNat (c.counts[n.toNat] + 1)) :=
      (congrArg (Vector.map UInt64.ofNat) counted).trans Vector.map_set
    rw [counted, Vector.getElem_set_self] at fits
    rw [if_pos counts, word, increment?_ofNat fits]
    exact congrArg (fun v => some (WordCounters.mk c.enabled _ v)) words.symm
  · have kept : (c.record ⟨n.toNat, line⟩ level).counts = c.counts := if_neg counts
    rw [if_neg counts]
    exact congrArg (fun v => some (WordCounters.mk c.enabled _ (v.map UInt64.ofNat))) kept.symm

end WordCounters

end PicCascade
