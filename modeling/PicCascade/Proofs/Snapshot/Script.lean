import PicCascade.Proofs.Snapshot.Reader
import PicCascade.Snapshot.Cursor

/-!
# Scripts of reads

A script of reads goes on after a failure, so it has to be clear what a failure consumes. The rules
`Read.Does` say for each step what it answers and how many bytes it consumes, given what is left.
They cover every step and every input, and both kinds of readers follow them: those that hand on
what is left of their input, and the cursor, which keeps a position in a word of 64 bits. For the
cursor, what carries the induction over a script is that the position is within the buffer
(`Cursor.Valid`); then no sum of a position and a length that is accepted can have wrapped around.

Results:
* `Shape.run_read_toBytes`, `Shape.run_read_of_lt`, `Shape.run_read_bool`: reading one item.
* `Read.exists_does`, `Read.Does.perform_eq`: every step follows a rule.
* `Read.performAll_encode`, `Read.performAll_cut`: reading the bytes of items, all of them or a part.
* `Cursor.Valid.perform_eq`, `Cursor.Valid.performAll_eq`: a step and a script at a position.
* `Cursor.readsBack_and_inPlace`: items are read back, and no script loses its place.
-/

namespace PicCascade.Snapshot

/-! ## Items and their bytes -/

theorem Item.length_toBytes (item : Item) : item.toBytes.length = item.shape.width := by
  cases item with
  | bytes v => rfl
  | u8 | u16 | u32 | u64 | bool => exact LittleEndian.length_ofNat ..

/-- The number that a byte string reads as, in a type whose values are the numbers of its width, has
this byte string. -/
theorem ofNat_toNat_of_length {α : Type} {width : Nat} {ofNat : Nat → α} {toNat : α → Nat}
    (toNat_ofNat : ∀ n, n < 256 ^ width → toNat (ofNat n) = n) {bs : List UInt8}
    (length : bs.length = width) :
    LittleEndian.ofNat width (toNat (ofNat (LittleEndian.toNat bs))) = bs := by
  subst length
  rw [toNat_ofNat _ (LittleEndian.toNat_lt bs), LittleEndian.ofNat_toNat]

/-- Every byte string of the right length is that of an item, except for a byte other than 0 and 1 as
a truth value. -/
theorem Item.exists_toBytes_eq {shape : Shape} {bs : List UInt8} (length : bs.length = shape.width) :
    (∃ item : Item, item.shape = shape ∧ item.toBytes = bs) ∨
      (shape = .bool ∧ ∃ b, bs = [b] ∧ b ≠ 0 ∧ b ≠ 1) := by
  cases shape with
  | u8 =>
    exact .inl ⟨.u8 (UInt8.ofNat (LittleEndian.toNat bs)), rfl,
      ofNat_toNat_of_length (fun _ small => UInt8.toNat_ofNat_of_lt' small) length⟩
  | u16 =>
    exact .inl ⟨.u16 (UInt16.ofNat (LittleEndian.toNat bs)), rfl,
      ofNat_toNat_of_length (fun _ small => UInt16.toNat_ofNat_of_lt' small) length⟩
  | u32 =>
    exact .inl ⟨.u32 (UInt32.ofNat (LittleEndian.toNat bs)), rfl,
      ofNat_toNat_of_length (fun _ small => UInt32.toNat_ofNat_of_lt' small) length⟩
  | u64 =>
    exact .inl ⟨.u64 (UInt64.ofNat (LittleEndian.toNat bs)), rfl,
      ofNat_toNat_of_length (fun _ small => UInt64.toNat_ofNat_of_lt' small) length⟩
  | bool =>
    obtain ⟨b, rfl⟩ := List.length_eq_one_iff.mp length
    by_cases zero : b = 0
    · exact .inl ⟨.bool false, rfl, by rw [zero]; rfl⟩
    · by_cases one : b = 1
      · exact .inl ⟨.bool true, rfl, by rw [one]; rfl⟩
      · exact .inr ⟨rfl, b, rfl, zero, one⟩
  | bytes n =>
    obtain rfl : bs.length = n := length
    exact .inl ⟨.bytes bs, rfl, rfl⟩

/-! ## Reading one item -/

theorem Reader.run_bind_of_error {α β : Type} {first : Reader α} {next : α → Reader β}
    {input rest : List UInt8} {e : Error} (failed : first.run input = .error e rest) :
    (first >>= next).run input = .error e rest := by
  rw [EStateM.run_bind, failed]

namespace Shape

open Reader

/-- An item is read back from its bytes. -/
theorem run_read_toBytes (item : Item) (rest : List UInt8) :
    item.shape.read.run (item.toBytes ++ rest) = .ok item rest := by
  cases item with
  | u8 v =>
    have byte : (Item.u8 v).toBytes = [v] := LittleEndian.ofNat_one v
    rw [byte]
    exact run_bind_eq_ok.mpr ⟨v, rest, run_u8_eq_ok.mpr rfl, rfl⟩
  | u16 v => exact run_bind_eq_ok.mpr ⟨v, rest, run_u16_eq_ok.mpr rfl, rfl⟩
  | u32 v => exact run_bind_eq_ok.mpr ⟨v, rest, run_u32_eq_ok.mpr rfl, rfl⟩
  | u64 v => exact run_bind_eq_ok.mpr ⟨v, rest, run_u64_eq_ok.mpr rfl, rfl⟩
  | bool v => exact run_bind_eq_ok.mpr ⟨v, rest, run_bool_eq_ok.mpr rfl, rfl⟩
  | bytes v => exact run_bind_eq_ok.mpr ⟨⟨v, rfl⟩, rest, run_take_append v rest, rfl⟩

theorem value_toBytes (item : Item) : item.shape.read.value item.toBytes = .ok item := by
  have run := run_read_toBytes item []
  rw [List.append_nil] at run
  rw [value, run]

/-- Too few bytes are left as they are. -/
theorem run_read_of_lt {shape : Shape} {input : List UInt8} (short : input.length < shape.width) :
    shape.read.run input = .error .unexpectedEnd input := by
  have number {width : Nat} (few : input.length < width) :
      (Reader.number width).run input = .error .unexpectedEnd input :=
    run_bind_of_error (run_take_of_lt few)
  cases shape with
  | bytes n => exact run_bind_of_error (run_take_of_lt short)
  | bool => exact run_bind_of_error (run_bind_of_error (run_bind_of_error (number short)))
  | u8 | u16 | u32 | u64 => exact run_bind_of_error (run_bind_of_error (number short))

/-- A byte other than 0 and 1 is consumed and refused as a truth value. -/
theorem run_read_bool {b : UInt8} (zero : b ≠ 0) (one : b ≠ 1) (rest : List UInt8) :
    Shape.bool.read.run (b :: rest) = .error (.invalidEncoding .bool) rest := by
  have byte : Reader.u8.run (b :: rest) = .ok b rest := run_u8_eq_ok.mpr rfl
  have large : ¬ b ≤ 1 := by
    intro small
    rcases eq_zero_or_eq_one small with rfl | rfl
    · exact zero rfl
    · exact one rfl
  have refused : (require (b ≤ 1) (.invalidEncoding .bool)).run rest =
      .error (.invalidEncoding .bool) rest := by
    rw [require, if_neg large]
    rfl
  apply run_bind_of_error
  rw [Reader.bool, EStateM.run_bind, byte]
  exact run_bind_of_error refused

theorem value_bool {b : UInt8} (zero : b ≠ 0) (one : b ≠ 1) :
    Shape.bool.read.value [b] = .error (.invalidEncoding .bool) := by
  rw [value, run_read_bool zero one]

end Shape

/-! ## The rules of reading -/

namespace Read

/-- What a step answers if `input` is what is left, and how many bytes it consumes. -/
inductive Does (input : List UInt8) : Read → Answer → Nat → Prop where
  /-- The bytes of an item of the right shape come next. -/
  | found {item : Item} (next : item.toBytes <+: input) :
      Does input (.item item.shape) (.item item) item.toBytes.length
  /-- Too few bytes are left. -/
  | short {shape : Shape} (few : input.length < shape.width) :
      Does input (.item shape) (.failed .unexpectedEnd) 0
  /-- The next byte is no truth value. -/
  | noBool {b : UInt8} (next : [b] <+: input) (zero : b ≠ 0) (one : b ≠ 1) :
      Does input (.item .bool) (.failed (.invalidEncoding .bool)) 1
  | atEnd : Does input .atEnd (.atEnd input.isEmpty) 0
  | finished (all : input = []) : Does input .finish .finished 0
  | leftOver (more : input ≠ []) : Does input .finish (.failed (.invalidEncoding .trailingBytes)) 0

variable {input : List UInt8} {step : Read} {answer : Answer} {consumed : Nat}

/-- Some rule applies to every step, whatever is left. -/
theorem exists_does (input : List UInt8) (step : Read) :
    ∃ answer consumed, Does input step answer consumed := by
  cases step with
  | atEnd => exact ⟨_, _, .atEnd⟩
  | finish =>
    by_cases all : input = []
    · exact ⟨_, _, .finished all⟩
    · exact ⟨_, _, .leftOver all⟩
  | item shape =>
    by_cases few : input.length < shape.width
    · exact ⟨_, _, .short few⟩
    have next : input.take shape.width <+: input := List.take_prefix shape.width input
    have length : (input.take shape.width).length = shape.width :=
      List.length_take_of_le (Nat.le_of_not_lt few)
    rcases Item.exists_toBytes_eq length with ⟨item, rfl, bytes⟩ | ⟨rfl, b, byte, zero, one⟩
    · exact ⟨_, _, .found (bytes ▸ next)⟩
    · exact ⟨_, _, .noBool (byte ▸ next) zero one⟩

/-- No step consumes more than there is. -/
theorem Does.le_length (does : Does input step answer consumed) : consumed ≤ input.length := by
  cases does with
  | found next => exact next.length_le
  | noBool next zero one => exact next.length_le
  | short | atEnd | finished | leftOver => exact Nat.zero_le _

theorem perform_item (shape : Shape) (input : List UInt8) :
    perform (.item shape) input =
      match shape.read.run input with
      | .ok value rest => (Answer.item value, rest)
      | .error e rest => (.failed e, rest) := by
  rw [perform, reader, EStateM.run_bind]
  cases shape.read.run input <;> rfl

/-- A step does what the rules say. -/
theorem Does.perform_eq (does : Does input step answer consumed) :
    step.perform input = (answer, input.drop consumed) := by
  cases does with
  | found next =>
    obtain ⟨rest, rfl⟩ := next
    rw [perform_item, Shape.run_read_toBytes, List.drop_left]
  | short few => rw [perform_item, Shape.run_read_of_lt few, List.drop_zero]
  | noBool next zero one =>
    obtain ⟨rest, rfl⟩ := next
    rw [perform_item, List.singleton_append, Shape.run_read_bool zero one]
    rfl
  | atEnd => rfl
  | finished all => subst all; rfl
  | leftOver more =>
    cases input with
    | nil => exact absurd rfl more
    | cons b rest => rfl

/-! ## Reading items back -/

theorem performAll_cons (does : Does input step answer consumed) (script : List Read) :
    performAll (step :: script) input = answer :: performAll script (input.drop consumed) := by
  rw [performAll, does.perform_eq]

theorem performAll_item (item : Item) (rest : List UInt8) (script : List Read) :
    performAll (.item item.shape :: script) (item.toBytes ++ rest) =
      .item item :: performAll script rest := by
  rw [performAll_cons (.found (List.prefix_append _ _)), List.drop_left]

/-- The script that reads some items. -/
def ofItems (items : List Item) : List Read := items.map fun item => .item item.shape

/-- Items are read back from their bytes, and nothing is left over. -/
theorem performAll_encode (items : List Item) :
    performAll (ofItems items ++ [.finish]) (Item.encode items) =
      items.map .item ++ [.finished] := by
  induction items with
  | nil => rfl
  | cons item items ih =>
    calc performAll (.item item.shape :: (ofItems items ++ [.finish]))
          (item.toBytes ++ Item.encode items)
      _ = .item item :: performAll (ofItems items ++ [.finish]) (Item.encode items) :=
        performAll_item ..
      _ = .item item :: (items.map .item ++ [.finished]) := by rw [ih]

/-- If the bytes of some items are cut short, one of the items is missing, and those before it are
read. -/
theorem performAll_cut {items : List Item} {part : List UInt8} (start : part <+: Item.encode items)
    (cut : part ≠ Item.encode items) :
    ∃ before item after others, items = before ++ item :: after ∧
      performAll (ofItems items) part =
        before.map .item ++ .failed .unexpectedEnd :: others := by
  induction items generalizing part with
  | nil => exact absurd (List.prefix_nil.mp start) cut
  | cons item items ih =>
    have cons : Item.encode (item :: items) = item.toBytes ++ Item.encode items := rfl
    rw [cons] at start cut
    by_cases few : part.length < item.toBytes.length
    · rw [item.length_toBytes] at few
      exact ⟨[], item, items, _, rfl, performAll_cons (.short few) (ofItems items)⟩
    · obtain ⟨rest, rfl, begins⟩ := exists_eq_append_of_start start (Nat.le_of_not_lt few)
      have shorter : rest ≠ Item.encode items := by
        rintro rfl
        exact cut rfl
      obtain ⟨before, missing, after, others, rfl, answers⟩ := ih begins shorter
      refine ⟨item :: before, missing, after, others, rfl, ?_⟩
      calc performAll (.item item.shape :: ofItems (before ++ missing :: after))
            (item.toBytes ++ rest)
        _ = .item item :: performAll (ofItems (before ++ missing :: after)) rest :=
          performAll_item ..
        _ = .item item :: (before.map .item ++ .failed .unexpectedEnd :: others) := by
          rw [answers]

/-- The length that a step asks for fits a word. -/
def Fits : Read → Prop
  | .item shape => shape.width < UInt64.size
  | .atEnd | .finish => True

instance : DecidablePred Fits
  | .item shape => inferInstanceAs (Decidable (shape.width < UInt64.size))
  | .atEnd | .finish => inferInstanceAs (Decidable True)

end Read

/-! ## Reading at a position -/

namespace Cursor

variable {c : Cursor} {step : Read} {answer : Read.Answer} {consumed : Nat}

/-- What has not been consumed. -/
def left (c : Cursor) : List UInt8 := c.buffer.drop c.position.toNat

/-- The cursor behind the next `n` bytes. -/
def advance (c : Cursor) (n : Nat) : Cursor :=
  { c with position := c.position + UInt64.ofNat n }

/-- The position is within the buffer, and the buffer within what a word can count. -/
structure Valid (c : Cursor) : Prop where
  within : c.position.toNat ≤ c.buffer.length
  countable : c.buffer.length < UInt64.size

theorem Valid.length_left (valid : c.Valid) :
    c.position.toNat + c.left.length = c.buffer.length := by
  have within := valid.within
  rw [left, List.length_drop]
  omega

theorem Valid.toNat_position_advance (valid : c.Valid) {n : Nat} (enough : n ≤ c.left.length) :
    (c.advance n).position.toNat = c.position.toNat + n := by
  have whole := valid.length_left
  have countable : c.buffer.length < 2 ^ 64 := valid.countable
  show (c.position + UInt64.ofNat n).toNat = c.position.toNat + n
  rw [UInt64.toNat_add, UInt64.toNat_ofNat', Nat.add_mod_mod, Nat.mod_eq_of_lt (by omega)]

theorem Valid.advance (valid : c.Valid) {n : Nat} (enough : n ≤ c.left.length) :
    (c.advance n).Valid where
  within := by
    have whole := valid.length_left
    rw [valid.toNat_position_advance enough]
    show c.position.toNat + n ≤ c.buffer.length
    omega
  countable := valid.countable

theorem Valid.left_advance (valid : c.Valid) {n : Nat} (enough : n ≤ c.left.length) :
    (c.advance n).left = c.left.drop n := by
  rw [left, valid.toNat_position_advance enough, left, List.drop_drop]
  rfl

@[simp]
theorem advance_zero (c : Cursor) : c.advance 0 = c := by
  show { c with position := c.position + 0 } = c
  rw [UInt64.add_zero]

/-- As many bytes as are left can be taken. -/
theorem run_take_of_le (valid : c.Valid) {n : UInt64} (enough : n.toNat ≤ c.left.length) :
    (take n).run c = .ok (c.left.take n.toNat) (c.advance n.toNat) := by
  have whole := valid.length_left
  have countable : c.buffer.length < UInt64.size := valid.countable
  have sum : add? c.position n = some (c.position + n) := if_pos (by omega)
  have toNat : (c.position + n).toNat = c.position.toNat + n.toNat := by
    have moved := valid.toNat_position_advance enough
    rwa [Cursor.advance, UInt64.ofNat_toNat] at moved
  have stop : c.stop? n = some (c.position + n) := by
    rw [stop?, sum]
    simp only [Option.filter_some, toNat]
    rw [if_pos (by simpa using by omega)]
  simp only [take, EStateM.run, stop, toNat, Cursor.advance, UInt64.ofNat_toNat, left,
    List.extract_eq_take_drop, Nat.add_sub_cancel_left]

/-- More bytes than are left cannot be taken, however many they are. -/
theorem run_take_of_lt (valid : c.Valid) {n : UInt64} (few : c.left.length < n.toNat) :
    (take n).run c = .error .unexpectedEnd c := by
  have whole := valid.length_left
  have stop : c.stop? n = none := by
    rw [stop?, add?]
    split
    · rename_i small
      have toNat : (c.position + n).toNat = c.position.toNat + n.toNat := by
        rw [UInt64.toNat_add]
        exact Nat.mod_eq_of_lt small
      simp [toNat]
      omega
    · rfl
  simp only [take, EStateM.run, stop]

theorem run_read_of_le (valid : c.Valid) {shape : Shape} (enough : shape.width ≤ c.left.length) :
    (read shape).run c =
      match shape.read.value (c.left.take shape.width) with
      | .ok item => .ok item (c.advance shape.width)
      | .error e => .error e (c.advance shape.width) := by
  have whole := valid.length_left
  have countable : c.buffer.length < UInt64.size := valid.countable
  have toNat : (UInt64.ofNat shape.width).toNat = shape.width :=
    UInt64.toNat_ofNat_of_lt' (by omega)
  rw [read, EStateM.run_bind, run_take_of_le valid (by omega), toNat]
  show (match shape.read.value (c.left.take shape.width) with
    | .ok item => return item
    | .error e => throw e : EStateM Error Cursor Item).run (c.advance shape.width) = _
  cases shape.read.value (c.left.take shape.width) <;> rfl

theorem Valid.atEnd_eq (valid : c.Valid) : c.atEnd = c.left.isEmpty := by
  have whole := valid.length_left
  rw [atEnd, Bool.eq_iff_iff, decide_eq_true_iff, List.isEmpty_iff, ← List.length_eq_zero_iff]
  omega

theorem perform_item (c : Cursor) (shape : Shape) :
    c.perform (.item shape) =
      match (read shape).run c with
      | .ok value next => (.item value, next)
      | .error e next => (.failed e, next) := by
  rw [perform, reader, EStateM.run_bind]
  cases (read shape).run c <;> rfl

theorem run_finish (c : Cursor) :
    (reader .finish).run c =
      if c.atEnd then .ok .finished c else .error (.invalidEncoding .trailingBytes) c := by
  show (if c.atEnd then pure .finished else throw (.invalidEncoding .trailingBytes) :
    EStateM Error Cursor Read.Answer).run c = _
  split <;> rfl

/-- At a position, too, a step does what the rules say about what is left. -/
theorem Valid.perform_eq (valid : c.Valid) (fits : step.Fits)
    (does : step.Does c.left answer consumed) : c.perform step = (answer, c.advance consumed) := by
  cases does with
  | @found item next =>
    have bytes : c.left.take item.shape.width = item.toBytes := by
      rw [← item.length_toBytes]
      exact (List.prefix_iff_eq_take.mp next).symm
    have enough : item.shape.width ≤ c.left.length := by
      rw [← item.length_toBytes]
      exact next.length_le
    rw [perform_item, run_read_of_le valid enough, bytes, Shape.value_toBytes, item.length_toBytes]
  | @short shape few =>
    have toNat : (UInt64.ofNat shape.width).toNat = shape.width := UInt64.toNat_ofNat_of_lt' fits
    have refused : (read shape).run c = .error .unexpectedEnd c := by
      rw [read, EStateM.run_bind, run_take_of_lt valid (by omega)]
    rw [perform_item, refused, advance_zero]
  | @noBool b next zero one =>
    have byte : c.left.take Shape.bool.width = [b] := (List.prefix_iff_eq_take.mp next).symm
    have enough : Shape.bool.width ≤ c.left.length := next.length_le
    rw [perform_item, run_read_of_le valid enough, byte, Shape.value_bool zero one]
    rfl
  | atEnd =>
    rw [advance_zero, ← valid.atEnd_eq]
    rfl
  | finished all =>
    have atEnd : c.atEnd = true := by rw [valid.atEnd_eq, all]; rfl
    rw [perform, run_finish, atEnd, advance_zero]
    rfl
  | leftOver more =>
    have atEnd : c.atEnd = false := by rw [valid.atEnd_eq]; simpa using more
    rw [perform, run_finish, atEnd, advance_zero]
    rfl

/-! ## Scripts at a position -/

theorem advance_advance (c : Cursor) (n m : Nat) : (c.advance n).advance m = c.advance (n + m) := by
  rw [advance, advance, advance, UInt64.ofNat_add, UInt64.add_assoc]

/-- A script at a position has the same answers as one that reads what is left. It consumes no more
than there is. -/
theorem Valid.performAll_eq (valid : c.Valid) {script : List Read} (fits : ∀ s ∈ script, s.Fits) :
    ∃ consumed ≤ c.left.length,
      c.performAll script = (Read.performAll script c.left, c.advance consumed) := by
  induction script generalizing c with
  | nil => exact ⟨0, Nat.zero_le _, by rw [advance_zero]; rfl⟩
  | cons step script ih =>
    obtain ⟨answer, first, does⟩ := Read.exists_does c.left step
    have enough := does.le_length
    obtain ⟨others, within, run⟩ :=
      ih (valid.advance enough) fun s hs => fits s (List.mem_cons_of_mem step hs)
    rw [valid.left_advance enough] at within run
    rw [List.length_drop] at within
    refine ⟨first + others, by omega, ?_⟩
    rw [performAll, valid.perform_eq (fits step List.mem_cons_self) does]
    simp only [run, Read.performAll_cons does, advance_advance]

theorem performAll_append (c : Cursor) (first second : List Read) :
    c.performAll (first ++ second) =
      ((c.performAll first).1 ++ ((c.performAll first).2.performAll second).1,
        ((c.performAll first).2.performAll second).2) := by
  induction first generalizing c with
  | nil => rfl
  | cons step first ih => simp only [List.cons_append, performAll, ih]

/-! ## Writing and reading -/

section Start

variable {buffer : List UInt8} {script : List Read}

theorem start_valid (countable : buffer.length < UInt64.size) : Valid ⟨buffer, 0⟩ where
  within := Nat.zero_le _
  countable := countable

theorem performAll_start (countable : buffer.length < UInt64.size)
    (fits : ∀ s ∈ script, s.Fits) :
    (performAll ⟨buffer, 0⟩ script).1 = Read.performAll script buffer := by
  obtain ⟨consumed, -, run⟩ := (start_valid countable).performAll_eq fits
  rw [run]
  rfl

end Start

/-- The bytes of some items count the bytes of each of them. -/
theorem fits_ofItems {items : List Item} (countable : (Item.encode items).length < UInt64.size) :
    ∀ s ∈ Read.ofItems items, s.Fits := by
  intro s hs
  obtain ⟨item, hitem, rfl⟩ := List.mem_map.mp hs
  have part : item.toBytes.length ≤ (Item.encode items).length :=
    (List.sublist_flatten_of_mem (List.mem_map_of_mem hitem)).length_le
  rw [item.length_toBytes] at part
  exact Nat.lt_of_le_of_lt part countable

/-- Whoever reads the bytes of some items, with their shapes and to the end, finds these items and
nothing after them. If bytes are missing at the end, one of the reads is refused for that, and those
before it find what was written. -/
structure ReadsBack (items : List Item) : Prop where
  whole :
    (performAll ⟨Item.encode items, 0⟩ (Read.ofItems items ++ [.finish])).1 =
      items.map .item ++ [.finished]
  cut : ∀ part, part <+: Item.encode items → part ≠ Item.encode items →
    ∃ before item after others, items = before ++ item :: after ∧
      (performAll ⟨part, 0⟩ (Read.ofItems items)).1 =
        before.map .item ++ .failed .unexpectedEnd :: others

theorem readsBack_of_countable {items : List Item}
    (countable : (Item.encode items).length < UInt64.size) : ReadsBack items where
  whole := by
    rw [performAll_start countable, Read.performAll_encode]
    intro s hs
    rcases List.mem_append.mp hs with reading | last
    · exact fits_ofItems countable s reading
    · obtain rfl := List.mem_singleton.mp last
      exact trivial
  cut part start cut := by
    have shorter : part.length < UInt64.size := Nat.lt_of_le_of_lt start.length_le countable
    rw [performAll_start shorter (fits_ofItems countable)]
    exact Read.performAll_cut start cut

/-- The place of the cursor `c` that a script left in a buffer. What the next step answers is what the
rules say about the bytes behind the position, and the position moves by as many bytes as they say. -/
structure InPlace (buffer : List UInt8) (c : Cursor) (step : Read) : Prop where
  buffer_eq : c.buffer = buffer
  within : c.position.toNat ≤ buffer.length
  buffer_eq_after : (c.perform step).2.buffer = buffer
  within_after : (c.perform step).2.position.toNat ≤ buffer.length
  does_iff : ∀ answer consumed,
    step.Does (buffer.drop c.position.toNat) answer consumed ↔
      (c.perform step).1 = answer ∧
        (c.perform step).2.position.toNat = c.position.toNat + consumed

theorem Valid.inPlace (valid : c.Valid) (fits : step.Fits) : InPlace c.buffer c step := by
  obtain ⟨answer, consumed, does⟩ := Read.exists_does c.left step
  have moved := valid.toNat_position_advance does.le_length
  have performed := valid.perform_eq fits does
  refine ⟨rfl, valid.within, ?_, ?_, fun other n => ?_⟩
  · rw [performed]
    rfl
  · rw [performed]
    exact (valid.advance does.le_length).within
  · constructor
    · intro also
      rw [valid.perform_eq fits also]
      exact ⟨rfl, valid.toNat_position_advance also.le_length⟩
    · rw [performed]
      rintro ⟨rfl, length⟩
      obtain rfl : consumed = n := Nat.add_left_cancel (moved.symm.trans length)
      exact does

/-- Writing and reading agree, and reading never loses its place. Items are read back from their
bytes. Of any script on any buffer, every step, also after failures and whatever lengths were asked
for, finds the cursor in its place; the answers are those of a reader that hands on what is left. -/
theorem readsBack_and_inPlace :
    (∀ items, (Item.encode items).length < UInt64.size → ReadsBack items) ∧
      ∀ (buffer : List UInt8) (script : List Read) (step : Read),
        buffer.length < UInt64.size → (∀ s ∈ script ++ [step], s.Fits) →
          let (answers, c) := performAll ⟨buffer, 0⟩ script
          InPlace buffer c step ∧
            performAll ⟨buffer, 0⟩ (script ++ [step]) =
              (answers ++ [(c.perform step).1], (c.perform step).2) ∧
            answers ++ [(c.perform step).1] = Read.performAll (script ++ [step]) buffer := by
  constructor
  · intro items countable
    exact readsBack_of_countable countable
  · intro buffer script step countable fits
    have start := start_valid countable
    have before : ∀ s ∈ script, s.Fits := fun s hs => fits s (List.mem_append_left _ hs)
    obtain ⟨consumed, enough, run⟩ := start.performAll_eq before
    have longer := performAll_append ⟨buffer, 0⟩ script [step]
    have agree := performAll_start countable fits
    rw [longer] at agree ⊢
    rw [run] at agree ⊢
    have valid := start.advance enough
    have last : step.Fits := fits step (List.mem_append_right _ (List.mem_singleton_self step))
    exact ⟨valid.inPlace last, rfl, agree⟩

/-- A number, a truth value and two bytes are read back. A truth value after a request for almost as
many bytes as a word can count is read where that request was made, and the position is behind it. -/
theorem readsBack_and_inPlace_mixed :
    ReadsBack [.u16 0x0102, .bool true, .bytes [7, 8]] ∧
      InPlace [2, 9, 5] ⟨[2, 9, 5], 1⟩ (.item .bool) ∧
      performAll ⟨[2, 9, 5], 0⟩ [.item .u8, .item (.bytes (UInt64.size - 1)), .item .bool] =
        ([.item (.u8 2), .failed .unexpectedEnd, .failed (.invalidEncoding .bool)],
          ⟨[2, 9, 5], 2⟩) := by
  have countable : [2, 9, 5].length < UInt64.size := by decide
  have fits : ∀ s ∈ [.item .u8, .item (.bytes (UInt64.size - 1))] ++ [.item .bool],
      Read.Fits s := by decide
  obtain ⟨back, place⟩ := readsBack_and_inPlace
  obtain ⟨inPlace, run, -⟩ := place [2, 9, 5] _ _ countable fits
  exact ⟨back _ (by decide), inPlace, run⟩

end Cursor

end PicCascade.Snapshot
