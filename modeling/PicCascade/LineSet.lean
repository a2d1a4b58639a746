/-!
# Sets of request lines

The registers of an interrupt controller are bitmaps over its request lines. `LineSet n` is such a
bitmap, read as a set: line `i` belongs to it iff bit `i` is set. Every operation below is
described by the lines that belong to its result, and two sets with the same lines are equal
(`LineSet.ext`), so nothing else needs to look at the bits.

Results:
* `mem_insert`, `mem_erase`, `mem_put`, `mem_inter`, `mem_sdiff`, `not_mem_empty`: membership in
  the result of each operation.
* `toByte_ofByte`, `ofByte_toByte`: the byte of eight lines and the set it stands for determine
  each other.
-/

namespace PicCascade

/-- A set of request lines out of `n`, stored as a bitmap. -/
structure LineSet (n : Nat) where
  bits : BitVec n
deriving DecidableEq

namespace LineSet

variable {n : Nat}

instance : Membership (Fin n) (LineSet n) where
  mem s i := s.bits[i] = true

instance (i : Fin n) (s : LineSet n) : Decidable (i ∈ s) :=
  inferInstanceAs (Decidable (s.bits[i] = true))

theorem mem_def {i : Fin n} {s : LineSet n} : i ∈ s ↔ s.bits[i] = true := Iff.rfl

/-- Sets with the same lines are equal. -/
@[ext]
theorem ext {s t : LineSet n} (h : ∀ i : Fin n, i ∈ s ↔ i ∈ t) : s = t := by
  cases s with | mk a =>
  cases t with | mk b =>
  congr 1
  apply BitVec.eq_of_getElem_eq
  intro i hi
  exact Bool.eq_iff_iff.mpr (h ⟨i, hi⟩)

instance : EmptyCollection (LineSet n) where
  emptyCollection := ⟨0#n⟩

instance : Inter (LineSet n) where
  inter s t := ⟨s.bits &&& t.bits⟩

instance : SDiff (LineSet n) where
  sdiff s t := ⟨s.bits &&& ~~~t.bits⟩

/-- Adds one line. -/
def insert (i : Fin n) (s : LineSet n) : LineSet n :=
  ⟨s.bits ||| BitVec.twoPow n i⟩

/-- Removes one line. -/
def erase (i : Fin n) (s : LineSet n) : LineSet n :=
  ⟨s.bits &&& ~~~BitVec.twoPow n i⟩

/-- Makes the membership of one line equal to `level`. -/
def put (i : Fin n) (level : Bool) (s : LineSet n) : LineSet n :=
  if level then s.insert i else s.erase i

/-! ## Membership -/

@[simp]
theorem not_mem_empty (i : Fin n) : i ∉ (∅ : LineSet n) := by
  change ¬ (0#n)[i] = true
  simp

@[simp]
theorem mem_inter {i : Fin n} {s t : LineSet n} : i ∈ s ∩ t ↔ i ∈ s ∧ i ∈ t := by
  change (s.bits &&& t.bits)[i] = true ↔ _
  simp [mem_def]

@[simp]
theorem mem_sdiff {i : Fin n} {s t : LineSet n} : i ∈ s \ t ↔ i ∈ s ∧ i ∉ t := by
  change (s.bits &&& ~~~t.bits)[i] = true ↔ _
  simp [mem_def]

@[simp]
theorem mem_insert {i j : Fin n} {s : LineSet n} : i ∈ s.insert j ↔ i = j ∨ i ∈ s := by
  simp [mem_def, insert, Fin.ext_iff, or_comm]

@[simp]
theorem mem_erase {i j : Fin n} {s : LineSet n} : i ∈ s.erase j ↔ i ≠ j ∧ i ∈ s := by
  simp [mem_def, erase, Fin.ext_iff, and_comm]

@[simp]
theorem mem_put {i j : Fin n} {level : Bool} {s : LineSet n} :
    i ∈ s.put j level ↔ if i = j then level = true else i ∈ s := by
  cases level <;> by_cases h : i = j <;> simp [put, h]

theorem put_comm {i j : Fin n} {a b : Bool} {s : LineSet n} (other : i ≠ j) :
    (s.put i a).put j b = (s.put j b).put i a := by
  ext k
  simp only [mem_put]
  by_cases first : k = i
  · subst first
    simp only [if_neg other, if_true]
  · simp only [if_neg first]

theorem put_put {i : Fin n} {level : Bool} {s : LineSet n} :
    (s.put i level).put i level = s.put i level := by
  ext k
  simp only [mem_put]
  by_cases own : k = i
  · simp only [if_pos own]
  · simp only [if_neg own]

/-! ## Bytes -/

/-- The lines whose bits are set in a byte. -/
def ofByte (b : UInt8) : LineSet 8 := ⟨b.toBitVec⟩

/-- The bitmap of eight lines as a byte. -/
def toByte (s : LineSet 8) : UInt8 := ⟨s.bits⟩

@[simp]
theorem toByte_ofByte (b : UInt8) : (ofByte b).toByte = b := rfl

@[simp]
theorem ofByte_toByte (s : LineSet 8) : ofByte s.toByte = s := rfl

/-- The bitmap as a number. -/
def toNat (s : LineSet n) : Nat := s.bits.toNat

end LineSet

end PicCascade
