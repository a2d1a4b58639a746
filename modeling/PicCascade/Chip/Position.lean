/-!
# Chips and lines of a cascade

A cascade has two controller chips with eight request lines each. The primary chip drives the
processor. The secondary chip drives one of the primary's lines, the cascade line. Seen from
outside, the lines are numbered 0 to 15: the primary has 0 to 7 and the secondary 8 to 15.

Where a definition embeds a function, a type, a field or a constant that the emulator has under
another name, that name stands in parentheses, in this module and in all others.

Results:
* `Line.ofByte_toByte`, `Line.ofByte?_toByte`: a line is found again from its number.
* `Line.global_ofGlobal`: a number below 16 is found again from its chip and line.
-/

namespace PicCascade

/-- One of the two chips (`ChipPosition`). -/
inductive Position where
  | primary
  | secondary
deriving DecidableEq

namespace Position

/-- The place of the chip in the cascade, counted from the processor. -/
def index : Position → Nat
  | .primary => 0
  | .secondary => 1

/-- The name of the chip in reports (`Display` of `ChipPosition`). -/
def name : Position → String
  | .primary => "primary"
  | .secondary => "secondary"

end Position

/-- A request line of one chip. -/
abbrev Line := Fin 8

namespace Line

/-- The line with the highest priority after power-on. -/
def first : Line := 0

/-- The line of the primary that the secondary drives (`CASCADE_IRQ`). -/
def cascade : Line := 2

/-- The line reported when there is no request to report (`SPURIOUS_IRQ`). -/
def spurious : Line := 7

/-- The line after a line; line 0 follows line 7. -/
def next (i : Line) : Line := i + 1

/-- The line named by the low three bits of a byte. -/
def ofByte (b : UInt8) : Line := Fin.ofNat 8 b.toNat

/-- The line with the given number. -/
def ofByte? (b : UInt8) : Option Line :=
  if h : b.toNat < 8 then some ⟨b.toNat, h⟩ else none

/-- The number of a line as a byte. -/
def toByte (i : Line) : UInt8 := UInt8.ofNat i.val

/-- The chip and the line that an outside number stands for (`for_global_irq`). Every number from 8
on belongs to the secondary. -/
def ofGlobal (n : UInt8) : Position × Line :=
  (if n < 8 then .primary else .secondary, ofByte n)

/-- The outside number of a line. -/
def global : Position → Line → UInt8
  | .primary, i => toByte i
  | .secondary, i => 8 + toByte i

theorem ofByte_toByte (i : Line) : ofByte (toByte i) = i := by
  revert i
  decide

@[simp]
theorem ofByte?_toByte (i : Line) : ofByte? (toByte i) = some i := by
  revert i
  decide

theorem global_ofGlobal {n : UInt8} (line : n.toNat < 16) :
    global (ofGlobal n).1 (ofGlobal n).2 = n := by
  have all : ∀ k : Fin 16, global (ofGlobal (UInt8.ofNat k)).1 (ofGlobal (UInt8.ofNat k)).2 =
      UInt8.ofNat k := by decide
  simpa using all ⟨n.toNat, line⟩

theorem ofGlobal_inj {m n : UInt8} (hm : m.toNat < 16) (hn : n.toNat < 16) :
    ofGlobal m = ofGlobal n ↔ m = n := by
  refine ⟨fun same => ?_, fun same => same ▸ rfl⟩
  rw [← global_ofGlobal hm, ← global_ofGlobal hn, same]

/-- Only the number 2 stands for the cascade line. -/
theorem eq_two_of_ofGlobal {n : UInt8} (h : ofGlobal n = (.primary, cascade)) : n = 2 := by
  obtain ⟨chip, line⟩ := Prod.mk.inj h
  have residue : n.toNat % 8 = 2 := congrArg Fin.val line
  by_cases low : n < 8
  · have bound : n.toNat < 8 := low
    apply UInt8.toNat_inj.mp
    show n.toNat = 2
    omega
  · simp [low] at chip

end Line

end PicCascade
