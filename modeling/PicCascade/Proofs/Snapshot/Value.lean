import PicCascade.Proofs.Snapshot.Reader
import PicCascade.Snapshot.Container.Value

/-!
# Reading a field as an item

Each type of item has an accessor, which reads the field with a given tag as an item of the type.
It returns an item iff the field holds exactly the bytes of that item, so nothing is cut off and
nothing is added. A field of another width is refused.

Results:
* `item?_eq_ok_some`: an accessor returns an item iff the field holds the bytes of the item.
* `item?_of_length_ne`: an accessor refuses a field of another width.
-/

namespace PicCascade.Snapshot

/-- The number of bytes of every item of a type, and what a field of another width is reported as.
Byte strings have no fixed width, and truth values are read as bytes first. -/
def Shape.width? : Shape → Option (Nat × Encoding)
  | .u8 => some (1, .u8)
  | .u16 => some (2, .u16)
  | .u32 => some (4, .u32)
  | .u64 => some (8, .u64)
  | .bool => some (1, .u8)
  | .bytes _ => none

namespace Container

/-- The field with the given tag, read through the accessor for items of a type. -/
def item? (c : Container) (tag : UInt16) : Shape → Except Error (Option Item)
  | .u8 => return (← c.u8? tag).map .u8
  | .u16 => return (← c.u16? tag).map .u16
  | .u32 => return (← c.u32? tag).map .u32
  | .u64 => return (← c.u64? tag).map .u64
  | .bool => return (← c.bool? tag).map .bool
  | .bytes _ => return (c.value? tag).map .bytes

variable {c : Container} {tag : UInt16}

/-! ## Numbers -/

theorem number?_eq_ok_some {width n : Nat} {what : Encoding} :
    c.number? width what tag = .ok (some n) ↔
      n < 256 ^ width ∧ c.value? tag = some (LittleEndian.ofNat width n) := by
  unfold number?
  cases value : c.value? tag with
  | none => simp
  | some bs =>
    simp only [Option.some.injEq]
    constructor
    · intro h
      split at h
      · rename_i length
        obtain rfl : LittleEndian.toNat bs = n := by simpa using h
        rw [← length]
        exact ⟨LittleEndian.toNat_lt bs, (LittleEndian.ofNat_toNat bs).symm⟩
      · cases h
    · rintro ⟨fits, rfl⟩
      rw [if_pos (LittleEndian.length_ofNat ..), LittleEndian.toNat_ofNat fits]

theorem number?_of_length_ne {width : Nat} {what : Encoding} {bs : List UInt8}
    (value : c.value? tag = some bs) (other : bs.length ≠ width) :
    c.number? width what tag = .error (.invalidEncoding what) := by
  rw [number?, value]
  exact if_neg other

/-- Reading a number as a type whose values are the numbers of that width. -/
theorem number?_map_eq_ok_some {α : Type} {width : Nat} {what : Encoding} {ofNat : Nat → α}
    {toNat : α → Nat} (fits : ∀ v, toNat v < 256 ^ width) (ofNat_toNat : ∀ v, ofNat (toNat v) = v)
    (toNat_ofNat : ∀ n, n < 256 ^ width → toNat (ofNat n) = n) {v : α} :
    (do return (← c.number? width what tag).map ofNat : Except Error (Option α)) = .ok (some v) ↔
      c.value? tag = some (LittleEndian.ofNat width (toNat v)) := by
  constructor
  · intro h
    cases number : c.number? width what tag with
    | error e =>
      rw [number] at h
      cases h
    | ok found =>
      rw [number] at h
      obtain ⟨n, rfl, rfl⟩ := Option.map_eq_some_iff.mp (Except.ok.inj h)
      obtain ⟨small, value⟩ := number?_eq_ok_some.mp number
      rw [value, toNat_ofNat n small]
  · intro value
    have number : c.number? width what tag = .ok (some (toNat v)) :=
      number?_eq_ok_some.mpr ⟨fits v, value⟩
    rw [number]
    show Except.ok (some (ofNat (toNat v))) = _
    rw [ofNat_toNat]

theorem u8?_eq_ok_some {v : UInt8} :
    c.u8? tag = .ok (some v) ↔ c.value? tag = some (LittleEndian.ofNat 1 v.toNat) :=
  number?_map_eq_ok_some UInt8.toNat_lt (fun _ => UInt8.ofNat_toNat)
    (fun _ small => UInt8.toNat_ofNat_of_lt' small)

theorem u16?_eq_ok_some {v : UInt16} :
    c.u16? tag = .ok (some v) ↔ c.value? tag = some (LittleEndian.ofNat 2 v.toNat) :=
  number?_map_eq_ok_some UInt16.toNat_lt (fun _ => UInt16.ofNat_toNat)
    (fun _ small => UInt16.toNat_ofNat_of_lt' small)

theorem u32?_eq_ok_some {v : UInt32} :
    c.u32? tag = .ok (some v) ↔ c.value? tag = some (LittleEndian.ofNat 4 v.toNat) :=
  number?_map_eq_ok_some UInt32.toNat_lt (fun _ => UInt32.ofNat_toNat)
    (fun _ small => UInt32.toNat_ofNat_of_lt' small)

theorem u64?_eq_ok_some {v : UInt64} :
    c.u64? tag = .ok (some v) ↔ c.value? tag = some (LittleEndian.ofNat 8 v.toNat) :=
  number?_map_eq_ok_some UInt64.toNat_lt (fun _ => UInt64.ofNat_toNat)
    (fun _ small => UInt64.toNat_ofNat_of_lt' small)

/-! ## Truth values -/

theorem bool?_of_u8?_eq_none (missing : c.u8? tag = .ok none) : c.bool? tag = .ok none := by
  rw [bool?, missing]
  rfl

theorem bool?_of_u8?_eq_some {b : UInt8} (found : c.u8? tag = .ok (some b)) :
    c.bool? tag = if b ≤ 1 then .ok (some (b = 1)) else .error (.invalidEncoding .bool) := by
  rw [bool?, found]
  rfl

theorem bool?_of_u8?_eq_error {e : Error} (failed : c.u8? tag = .error e) :
    c.bool? tag = .error e := by
  rw [bool?, failed]
  rfl

theorem bool?_eq_ok_some {v : Bool} :
    c.bool? tag = .ok (some v) ↔ c.value? tag = some (LittleEndian.ofNat 1 v.toNat) := by
  constructor
  · intro h
    cases found : c.u8? tag with
    | error e =>
      rw [bool?_of_u8?_eq_error found] at h
      cases h
    | ok byte =>
      cases byte with
      | none =>
        rw [bool?_of_u8?_eq_none found] at h
        cases h
      | some b =>
        rw [bool?_of_u8?_eq_some found] at h
        rw [u8?_eq_ok_some.mp found]
        split at h
        · rename_i small
          obtain rfl : decide (b = 1) = v := by simpa using h
          rcases Reader.eq_zero_or_eq_one small with rfl | rfl <;> rfl
        · cases h
  · intro value
    have found : c.u8? tag = .ok (some (UInt8.ofNat v.toNat)) := by
      apply u8?_eq_ok_some.mpr
      rw [value]
      cases v <;> rfl
    rw [bool?_of_u8?_eq_some found]
    cases v <;> rfl

theorem bool?_eq_ok_none : c.bool? tag = .ok none ↔ c.value? tag = none := by
  constructor
  · intro h
    cases value : c.value? tag with
    | none => rfl
    | some bs =>
      by_cases length : bs.length = 1
      · have found : c.u8? tag = .ok (some (UInt8.ofNat (LittleEndian.toNat bs))) := by
          simp only [u8?, number?, value, length, if_true]
          rfl
        rw [bool?_of_u8?_eq_some found] at h
        split at h <;> cases h
      · have failed : c.u8? tag = .error (.invalidEncoding .u8) := by
          rw [u8?, number?_of_length_ne value length]
          rfl
        rw [bool?_of_u8?_eq_error failed] at h
        cases h
  · intro missing
    apply bool?_of_u8?_eq_none
    rw [u8?, number?, missing]
    rfl

/-- A field is read as a truth value iff it is the byte 0 or 1. -/
theorem exists_bool?_eq_ok :
    (∃ flag, c.bool? tag = .ok flag) ↔
      ∀ bs, c.value? tag = some bs → bs = [0] ∨ bs = [1] := by
  constructor
  · rintro ⟨flag, read⟩ bs value
    cases flag with
    | none =>
      rw [bool?_eq_ok_none.mp read] at value
      cases value
    | some v =>
      rw [bool?_eq_ok_some.mp read] at value
      obtain rfl := Option.some.inj value
      cases v
      · exact .inl rfl
      · exact .inr rfl
  · intro flag
    cases value : c.value? tag with
    | none => exact ⟨none, bool?_eq_ok_none.mpr value⟩
    | some bs =>
      rcases flag bs value with rfl | rfl
      · exact ⟨some false, bool?_eq_ok_some.mpr value⟩
      · exact ⟨some true, bool?_eq_ok_some.mpr value⟩

/-! ## Items -/

/-- A value that is wrapped stands for a wrapped value only. -/
theorem map_eq_ok_some {α β : Type} {f : α → β} (inj : Function.Injective f)
    {x : Except Error (Option α)} {v : α} :
    (do return (← x).map f : Except Error (Option β)) = .ok (some (f v)) ↔ x = .ok (some v) := by
  cases x with
  | error e => simp [bind, Except.bind]
  | ok found => simp [bind, Except.bind, pure, Except.pure, inj.eq_iff]

/-- An accessor returns an item iff the field holds exactly the bytes of the item. -/
theorem item?_eq_ok_some {item : Item} :
    c.item? tag item.shape = .ok (some item) ↔ c.value? tag = some item.toBytes := by
  cases item with
  | u8 v => exact (map_eq_ok_some fun _ _ => Item.u8.inj).trans u8?_eq_ok_some
  | u16 v => exact (map_eq_ok_some fun _ _ => Item.u16.inj).trans u16?_eq_ok_some
  | u32 v => exact (map_eq_ok_some fun _ _ => Item.u32.inj).trans u32?_eq_ok_some
  | u64 v => exact (map_eq_ok_some fun _ _ => Item.u64.inj).trans u64?_eq_ok_some
  | bool v => exact (map_eq_ok_some fun _ _ => Item.bool.inj).trans bool?_eq_ok_some
  | bytes v =>
    have inner : (Except.ok (c.value? tag) : Except Error (Option (List UInt8))) =
        .ok (some v) ↔ c.value? tag = some v := by simp
    exact (map_eq_ok_some fun _ _ => Item.bytes.inj).trans inner

/-- An accessor refuses a field of another width. -/
theorem item?_of_length_ne {shape : Shape} {width : Nat} {what : Encoding} {bs : List UInt8}
    (fixed : shape.width? = some (width, what)) (value : c.value? tag = some bs)
    (other : bs.length ≠ width) : c.item? tag shape = .error (.invalidEncoding what) := by
  have refused : c.number? width what tag = .error (.invalidEncoding what) :=
    number?_of_length_ne value other
  cases shape with
  | u8 =>
    cases fixed
    rw [item?, u8?, refused]
    rfl
  | u16 =>
    cases fixed
    rw [item?, u16?, refused]
    rfl
  | u32 =>
    cases fixed
    rw [item?, u32?, refused]
    rfl
  | u64 =>
    cases fixed
    rw [item?, u64?, refused]
    rfl
  | bool =>
    cases fixed
    have failed : c.u8? tag = .error (.invalidEncoding .u8) := by
      rw [u8?, refused]
      rfl
    rw [item?, bool?_of_u8?_eq_error failed]
    rfl
  | bytes length => cases fixed

end Container

end PicCascade.Snapshot
