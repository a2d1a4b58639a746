import PicCascade.LittleEndian
import PicCascade.Snapshot.Error

/-!
# Reading bytes

A reader consumes bytes from the front of its input and either returns a value or fails. The input
that is left is known in both cases, so reading can go on after a failure. Running out of input
consumes nothing.

Results:
* `run_bind_eq_ok`: two readers in a row succeed iff each one does on what is left for it.
* `run_take_eq_ok`: reading `n` bytes returns exactly the first `n` and leaves the others.
* `run_take_of_lt`: reading more bytes than there are fails and leaves the input as it was.
* `run_number_eq_ok`: a number is read from the bytes that represent it.
-/

namespace PicCascade.Snapshot

/-- A reader of values of type `α` from the front of a byte string: a method of `Decoder`, with the
input that is left in place of `buf` and `pos`. -/
abbrev Reader (α : Type) := EStateM Error (List UInt8) α

namespace Reader

/-- Fails unless a condition holds. Consumes nothing. -/
def require (condition : Prop) [Decidable condition] (error : Error) : Reader Unit :=
  if condition then pure () else throw error

/-- The next `n` bytes (`bytes`). -/
def take (n : Nat) : Reader { bs : List UInt8 // bs.length = n } := fun input =>
  if h : n ≤ input.length then
    .ok ⟨input.take n, List.length_take_of_le h⟩ (input.drop n)
  else
    .error .unexpectedEnd input

/-- The next `width` bytes as a little-endian number (`array`, with `from_le_bytes`). -/
def number (width : Nat) : Reader Nat := do
  return LittleEndian.toNat (← take width)

/-- The next byte. -/
def u8 : Reader UInt8 := return UInt8.ofNat (← number 1)

/-- The next two bytes as a number. -/
def u16 : Reader UInt16 := return UInt16.ofNat (← number 2)

/-- The next four bytes as a number. -/
def u32 : Reader UInt32 := return UInt32.ofNat (← number 4)

/-- The next eight bytes as a number. -/
def u64 : Reader UInt64 := return UInt64.ofNat (← number 8)

/-- The next byte as a truth value. A byte other than 0 and 1 is consumed and refused. -/
def bool : Reader Bool := do
  let b ← u8
  require (b ≤ 1) (.invalidEncoding .bool)
  return b = 1

/-- Whether all input has been consumed (`is_empty`). -/
def atEnd : Reader Bool := return (← get).isEmpty

/-- Fails if input is left over. -/
def finish : Reader Unit := do
  require (← atEnd) (.invalidEncoding .trailingBytes)

/-- The value a reader returns on an input, whatever it leaves unread. -/
def value (reader : Reader α) (input : List UInt8) : Except Error α :=
  match reader.run input with
  | .ok a _ => .ok a
  | .error e _ => .error e

/-! ## Runs -/

theorem run_bind_eq_ok {α β : Type} {first : Reader α} {next : α → Reader β} {b : β}
    {input rest : List UInt8} :
    (first >>= next).run input = .ok b rest ↔
      ∃ a left, first.run input = .ok a left ∧ (next a).run left = .ok b rest := by
  rw [EStateM.run_bind]
  cases first.run input <;> simp [and_assoc]

theorem run_pure_eq_ok {α : Type} {a b : α} {input rest : List UInt8} :
    (pure a : Reader α).run input = .ok b rest ↔ a = b ∧ input = rest := by
  simp [EStateM.run_pure]

theorem run_require_eq_ok {condition : Prop} [Decidable condition] {error : Error} {u : Unit}
    {input rest : List UInt8} :
    (require condition error).run input = .ok u rest ↔ condition ∧ input = rest := by
  by_cases h : condition <;> simp [require, h]

theorem run_take_append (bs rest : List UInt8) :
    (take bs.length).run (bs ++ rest) = .ok ⟨bs, rfl⟩ rest := by
  simp [take, EStateM.run]

theorem run_take_of_lt {n : Nat} {input : List UInt8} (h : input.length < n) :
    (take n).run input = .error .unexpectedEnd input := by
  simp [take, EStateM.run, Nat.not_le.mpr h]

theorem run_take_eq_ok {n : Nat} {bs : { bs : List UInt8 // bs.length = n }}
    {input rest : List UInt8} :
    (take n).run input = .ok bs rest ↔ input = bs.val ++ rest := by
  constructor
  · intro h
    simp only [take, EStateM.run] at h
    split at h
    next fits => cases h; exact (List.take_append_drop n input).symm
    next => cases h
  · rintro rfl
    obtain ⟨bs, rfl⟩ := bs
    exact run_take_append bs rest

/-- A number read from `width` bytes is the value of those bytes. -/
theorem run_number_eq_ok {width v : Nat} {input rest : List UInt8} :
    (number width).run input = .ok v rest ↔
      ∃ bs, bs.length = width ∧ LittleEndian.toNat bs = v ∧ input = bs ++ rest := by
  simp only [number, run_bind_eq_ok, run_pure_eq_ok, run_take_eq_ok, Subtype.exists]
  constructor
  · rintro ⟨bs, hlen, left, split, hv, rfl⟩
    exact ⟨bs, hlen, hv, split⟩
  · rintro ⟨bs, hlen, hv, split⟩
    exact ⟨bs, hlen, rest, split, hv, rfl⟩

end Reader

end PicCascade.Snapshot
