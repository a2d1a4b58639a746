/-!
# Little-endian numbers

A number in a fixed count of bytes, the least significant byte first.

Results:
* `length_ofNat`: the count of bytes is the width asked for.
* `ofNat_toNat`: every byte string is the representation of the number it reads as.
-/

namespace PicCascade.LittleEndian

/-- The value of a byte string, the least significant byte first (`from_le_bytes`). -/
def toNat : List UInt8 → Nat
  | [] => 0
  | b :: bs => b.toNat + 256 * toNat bs

/-- The lowest `width` bytes of a number, the least significant first (`to_le_bytes`). -/
def ofNat : (width : Nat) → Nat → List UInt8
  | 0, _ => []
  | width + 1, v => UInt8.ofNat v :: ofNat width (v / 256)

@[simp]
theorem length_ofNat (width v : Nat) : (ofNat width v).length = width := by
  induction width generalizing v with
  | zero => rfl
  | succ width ih => simp [ofNat, ih]

theorem ofNat_toNat (bs : List UInt8) : ofNat bs.length (toNat bs) = bs := by
  induction bs with
  | nil => rfl
  | cons b bs ih =>
    have hb : b.toNat < 256 := UInt8.toNat_lt b
    have hq : (b.toNat + 256 * toNat bs) / 256 = toNat bs := by omega
    have hr : UInt8.ofNat (b.toNat + 256 * toNat bs) = b := by
      apply UInt8.toNat_inj.mp
      rw [UInt8.toNat_ofNat']
      omega
    simp [ofNat, toNat, hq, hr, ih]

end PicCascade.LittleEndian
