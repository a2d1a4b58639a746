import Mathlib.Algebra.Group.Nat.Defs
import PicCascade.Snapshot.Item

/-!
# Reading typed values

Each reader of a number or of a truth value succeeds exactly on inputs that begin with the bytes
of the value, and leaves what follows them.

Results:
* `LittleEndian.toNat_ofNat`: a number that fits is found again from its bytes.
* `run_number_eq_ok_iff`, `run_u8_eq_ok`, `run_u16_eq_ok`, `run_u32_eq_ok`, `run_u64_eq_ok`,
  `run_bool_eq_ok`: what each reader accepts.
* `run_finish_eq_ok`: the end of the input is accepted when nothing is left.
* `fails_take`, `fails_u16`, `fails_u32`: bytes and numbers are refused exactly when the input is too
  short for them.
-/

namespace PicCascade

/-- What begins with as many bytes of `a ++ b` as `a` has begins with `a`. -/
theorem Snapshot.exists_eq_append_of_start {part a b : List UInt8} (start : part <+: a ++ b)
    (long : a.length ≤ part.length) : ∃ rest, part = a ++ rest ∧ rest <+: b := by
  have first : a <+: part := List.prefix_of_prefix_length_le (List.prefix_append a b) start long
  obtain ⟨rest, rfl⟩ := first
  exact ⟨rest, rfl, (List.prefix_append_right_inj a).mp start⟩

/-! ## Little-endian numbers that fit -/

namespace LittleEndian

theorem toNat_lt (bs : List UInt8) : toNat bs < 256 ^ bs.length := by
  induction bs with
  | nil => exact Nat.one_pos
  | cons b bs ih =>
    have hb : b.toNat < 256 := b.toNat_lt
    rw [List.length_cons, Nat.pow_succ, toNat]
    omega

theorem toNat_ofNat {width v : Nat} (fits : v < 256 ^ width) : toNat (ofNat width v) = v := by
  induction width generalizing v with
  | zero =>
    rw [Nat.pow_zero] at fits
    rw [ofNat, toNat]
    omega
  | succ width ih =>
    rw [Nat.pow_succ] at fits
    rw [ofNat, toNat, ih (by omega), UInt8.toNat_ofNat']
    omega

theorem ofNat_one (b : UInt8) : ofNat 1 b.toNat = [b] := by
  simp [ofNat]

/-- Bytes that do not exceed the width are the beginning of some number. -/
theorem exists_prefix_ofNat {width : Nat} {bs : List UInt8} (short : bs.length ≤ width) :
    ∃ v, v < 256 ^ width ∧ bs <+: ofNat width v := by
  have length : (bs ++ List.replicate (width - bs.length) 0).length = width := by
    rw [List.length_append, List.length_replicate]
    omega
  refine ⟨toNat (bs ++ List.replicate (width - bs.length) 0), ?_, ?_⟩
  · calc toNat (bs ++ List.replicate (width - bs.length) 0)
      _ < 256 ^ (bs ++ List.replicate (width - bs.length) 0).length := toNat_lt _
      _ = 256 ^ width := by rw [length]
  · have whole := ofNat_toNat (bs ++ List.replicate (width - bs.length) 0)
    rw [length] at whole
    rw [whole]
    exact List.prefix_append ..

end LittleEndian

/-! ## Numbers and truth values -/

namespace Snapshot.Reader

theorem run_number_eq_ok_iff {width v : Nat} {input rest : List UInt8} :
    (number width).run input = .ok v rest ↔
      v < 256 ^ width ∧ input = LittleEndian.ofNat width v ++ rest := by
  rw [run_number_eq_ok]
  constructor
  · rintro ⟨bs, rfl, rfl, rfl⟩
    exact ⟨LittleEndian.toNat_lt bs, by rw [LittleEndian.ofNat_toNat]⟩
  · rintro ⟨fits, rfl⟩
    exact ⟨_, LittleEndian.length_ofNat .., LittleEndian.toNat_ofNat fits, rfl⟩

/-- Reading a number as a type whose values are the numbers of that width. -/
theorem run_number_map_eq_ok {α : Type} {width : Nat} {ofNat : Nat → α} {toNat : α → Nat}
    (fits : ∀ v, toNat v < 256 ^ width) (ofNat_toNat : ∀ v, ofNat (toNat v) = v)
    (toNat_ofNat : ∀ n, n < 256 ^ width → toNat (ofNat n) = n) {v : α}
    {input rest : List UInt8} :
    (number width >>= fun n => pure (ofNat n) : Reader α).run input = .ok v rest ↔
      input = LittleEndian.ofNat width (toNat v) ++ rest := by
  simp only [run_bind_eq_ok, run_pure_eq_ok, run_number_eq_ok_iff]
  constructor
  · rintro ⟨n, left, ⟨small, rfl⟩, rfl, rfl⟩
    rw [toNat_ofNat n small]
  · rintro rfl
    exact ⟨toNat v, rest, ⟨fits v, rfl⟩, ofNat_toNat v, rfl⟩

theorem run_u8_eq_ok {v : UInt8} {input rest : List UInt8} :
    u8.run input = .ok v rest ↔ input = v :: rest := by
  have accepted : u8.run input = .ok v rest ↔ input = LittleEndian.ofNat 1 v.toNat ++ rest :=
    run_number_map_eq_ok UInt8.toNat_lt (fun _ => UInt8.ofNat_toNat)
      (fun _ small => UInt8.toNat_ofNat_of_lt' small)
  rw [accepted, LittleEndian.ofNat_one, List.singleton_append]

theorem run_u16_eq_ok {v : UInt16} {input rest : List UInt8} :
    u16.run input = .ok v rest ↔ input = LittleEndian.ofNat 2 v.toNat ++ rest :=
  run_number_map_eq_ok UInt16.toNat_lt (fun _ => UInt16.ofNat_toNat)
    (fun _ small => UInt16.toNat_ofNat_of_lt' small)

theorem run_u32_eq_ok {v : UInt32} {input rest : List UInt8} :
    u32.run input = .ok v rest ↔ input = LittleEndian.ofNat 4 v.toNat ++ rest :=
  run_number_map_eq_ok UInt32.toNat_lt (fun _ => UInt32.ofNat_toNat)
    (fun _ small => UInt32.toNat_ofNat_of_lt' small)

theorem run_u64_eq_ok {v : UInt64} {input rest : List UInt8} :
    u64.run input = .ok v rest ↔ input = LittleEndian.ofNat 8 v.toNat ++ rest :=
  run_number_map_eq_ok UInt64.toNat_lt (fun _ => UInt64.ofNat_toNat)
    (fun _ small => UInt64.toNat_ofNat_of_lt' small)

theorem eq_zero_or_eq_one {b : UInt8} (flag : b ≤ 1) : b = 0 ∨ b = 1 := by
  have bound : b.toNat ≤ 1 := flag
  rcases Nat.le_one_iff_eq_zero_or_eq_one.mp bound with zero | one
  · exact .inl (UInt8.toNat_inj.mp zero)
  · exact .inr (UInt8.toNat_inj.mp one)

/-- A truth value is the byte 0 or 1. -/
theorem run_bool_eq_ok {v : Bool} {input rest : List UInt8} :
    bool.run input = .ok v rest ↔ input = LittleEndian.ofNat 1 v.toNat ++ rest := by
  simp only [bool, run_bind_eq_ok, run_pure_eq_ok, run_require_eq_ok, run_u8_eq_ok]
  constructor
  · rintro ⟨b, left, rfl, -, left', ⟨flag, rfl⟩, rfl, rfl⟩
    rcases eq_zero_or_eq_one flag with rfl | rfl <;> rfl
  · rintro rfl
    cases v
    · exact ⟨0, rest, rfl, (), rest, ⟨by decide, rfl⟩, rfl, rfl⟩
    · exact ⟨1, rest, rfl, (), rest, ⟨by decide, rfl⟩, rfl, rfl⟩

theorem run_finish_eq_ok {u : Unit} {input rest : List UInt8} :
    finish.run input = .ok u rest ↔ input = [] ∧ rest = [] := by
  have atEnd : Reader.atEnd.run input = .ok input.isEmpty input := rfl
  simp only [finish, run_bind_eq_ok, run_require_eq_ok, atEnd]
  cases input with
  | nil => simp [eq_comm]
  | cons b bs => simp

/-! ## Failures -/

/-- The reader fails on the input with the given error, wherever it stops. -/
def Fails {α : Type} (reader : Reader α) (input : List UInt8) (e : Error) : Prop :=
  ∃ rest, reader.run input = .error e rest

section Failures

variable {input : List UInt8} {e : Error}

theorem fails_bind {α β : Type} {first : Reader α} {next : α → Reader β} :
    (first >>= next).Fails input e ↔
      first.Fails input e ∨ ∃ a rest, first.run input = .ok a rest ∧ (next a).Fails rest e := by
  simp only [Fails, EStateM.run_bind]
  cases first.run input <;> simp [and_assoc]

theorem not_fails_pure {α : Type} {a : α} : ¬ (pure a : Reader α).Fails input e := by
  simp [Fails, EStateM.run_pure]

theorem fails_require {condition : Prop} [Decidable condition] {error : Error} :
    (require condition error).Fails input e ↔ ¬ condition ∧ e = error := by
  by_cases h : condition
  · simp [require, h, not_fails_pure]
  · simp [require, h, Fails, EStateM.run_throw, eq_comm]

theorem fails_take {n : Nat} :
    (take n).Fails input e ↔ input.length < n ∧ e = .unexpectedEnd := by
  by_cases h : input.length < n
  · simp [Fails, run_take_of_lt h, h, eq_comm]
  · simp [Fails, take, EStateM.run, Nat.not_lt.mp h, h]

theorem fails_number {width : Nat} :
    (number width).Fails input e ↔ input.length < width ∧ e = .unexpectedEnd := by
  simp only [number, fails_bind, fails_take, not_fails_pure, and_false, exists_false, or_false]

theorem fails_u16 : u16.Fails input e ↔ input.length < 2 ∧ e = .unexpectedEnd := by
  simp only [u16, fails_bind, fails_number, not_fails_pure, and_false, exists_false, or_false]

theorem fails_u32 : u32.Fails input e ↔ input.length < 4 ∧ e = .unexpectedEnd := by
  simp only [u32, fails_bind, fails_number, not_fails_pure, and_false, exists_false, or_false]

end Failures

end Snapshot.Reader

end PicCascade
