import PicCascade.Proofs.Chip.Command

/-!
# Setting up a chip

ICW1 begins an initialisation and announces how many words follow on the data port: ICW2 always,
ICW3 for a chip in cascade mode, ICW4 if it is to be expected. Words beyond those are masks.
`Setup.AskedBy` says from ICW1 and the words alone, without running the chip, what registers they
leave.

Results:
* `askedBy_writeCommand`, `askedBy_writeData`: ICW1 begins such a setup and each word continues it.
* `setup_writeCommand`: no other command touches the setup.
-/

namespace PicCascade

/-- The registers that the words of an initialisation and the masks fill, with the two bits of ICW1
that tell which words to expect. -/
structure Setup where
  imr : LineSet 8
  base : UInt8
  stage : InitStage
  autoEoi : Bool
  specialFullyNested : Bool
  expectIcw4 : Bool
  single : Bool
deriving DecidableEq

/-- The setup of a chip. -/
def Registers.setup (r : Registers) : Setup where
  imr := r.imr
  base := r.base
  stage := r.stage
  autoEoi := r.autoEoi
  specialFullyNested := r.specialFullyNested
  expectIcw4 := r.expectIcw4
  single := r.single

namespace Setup

/-! ## What the words ask for -/

/-- How many words ICW1 announces. -/
def announced (icw1 : UInt8) : Nat :=
  1 + (if Command.bit icw1 1 then 0 else 1) + (if Command.bit icw1 0 then 1 else 0)

/-- The stage of the initialisation after `n` words. -/
def stageAfter (icw1 : UInt8) (n : Nat) : InitStage :=
  if n = 0 then .awaitingIcw2
  else if n = 1 ∧ Command.bit icw1 1 = false then .awaitingIcw3
  else if n < announced icw1 then .awaitingIcw4
  else .ready

/-- The ICW4 among the words: the last announced one, if ICW1 announces an ICW4. -/
def icw4? (icw1 : UInt8) (words : List UInt8) : Option UInt8 :=
  if Command.bit icw1 0 then words[announced icw1 - 1]? else none

/-- The masks: the latest of the words beyond the announced ones, if there are any. -/
def masks (icw1 : UInt8) (words : List UInt8) : LineSet 8 :=
  if announced icw1 < words.length then .ofByte (words.getLastD 0) else ∅

/-- The setup is what ICW1 and the words that came after it ask for. -/
structure AskedBy (icw1 : UInt8) (words : List UInt8) (s : Setup) : Prop where
  base : s.base = words.head?.elim 0 (· &&& 0xF8)
  stage : s.stage = stageAfter icw1 words.length
  specialFullyNested : s.specialFullyNested = (icw4? icw1 words).any (Command.bit · 4)
  autoEoi : s.autoEoi = (icw4? icw1 words).any (Command.bit · 1)
  imr : s.imr = masks icw1 words
  expectIcw4 : s.expectIcw4 = Command.bit icw1 0
  single : s.single = Command.bit icw1 1

/-! ## The stages -/

variable {icw1 : UInt8} {n : Nat} {words : List UInt8}

theorem stageAfter_eq_icw2_iff : stageAfter icw1 n = .awaitingIcw2 ↔ n = 0 := by
  unfold stageAfter
  grind

theorem stageAfter_eq_icw3_iff :
    stageAfter icw1 n = .awaitingIcw3 ↔ n = 1 ∧ Command.bit icw1 1 = false := by
  unfold stageAfter
  grind

/-- The initialisation is over once the announced words are there. -/
theorem stageAfter_eq_ready_iff : stageAfter icw1 n = .ready ↔ announced icw1 ≤ n := by
  unfold stageAfter announced
  grind

theorem stageAfter_eq_icw4_iff :
    stageAfter icw1 n = .awaitingIcw4 ↔ n + 1 = announced icw1 ∧ Command.bit icw1 0 = true := by
  unfold stageAfter announced
  grind

/-- Each word leads from one stage to the next. -/
theorem stageAfter_succ (icw1 : UInt8) (n : Nat) :
    stageAfter icw1 (n + 1) =
      match stageAfter icw1 n with
      | .awaitingIcw2 =>
        if Command.bit icw1 1 then if Command.bit icw1 0 then .awaitingIcw4 else .ready
        else .awaitingIcw3
      | .awaitingIcw3 => if Command.bit icw1 0 then .awaitingIcw4 else .ready
      | .awaitingIcw4 | .ready => .ready := by
  unfold stageAfter announced
  grind

/-! ## One more word -/

/-- The first word is ICW2. -/
theorem base_append (icw1 : UInt8) (words : List UInt8) (value : UInt8) :
    (words ++ [value]).head?.elim 0 (· &&& 0xF8) =
      if stageAfter icw1 words.length = .awaitingIcw2 then value &&& 0xF8
      else words.head?.elim 0 (· &&& 0xF8) := by
  cases words with
  | nil => rfl
  | cons word rest => rw [if_neg (by simp [stageAfter_eq_icw2_iff])]; rfl

/-- A word is ICW4 if it is the last one of an initialisation with an ICW4. -/
theorem icw4?_append (value : UInt8) :
    icw4? icw1 (words ++ [value]) =
      if stageAfter icw1 words.length = .awaitingIcw4 then some value else icw4? icw1 words := by
  have first : 1 ≤ announced icw1 := by unfold announced; omega
  by_cases awaited : stageAfter icw1 words.length = .awaitingIcw4
  · obtain ⟨last, expected⟩ := stageAfter_eq_icw4_iff.mp awaited
    have index : announced icw1 - 1 = words.length := by omega
    rw [if_pos awaited, icw4?, if_pos expected, index, List.getElem?_concat_length]
  · rw [if_neg awaited]
    rw [stageAfter_eq_icw4_iff] at awaited
    unfold icw4?
    rw [List.getElem?_append, List.getElem?_singleton]
    grind

/-- A word after the announced ones is a mask. -/
theorem masks_append (value : UInt8) :
    masks icw1 (words ++ [value]) =
      if stageAfter icw1 words.length = .ready then .ofByte value else masks icw1 words := by
  have longer : (words ++ [value]).length = words.length + 1 := by simp
  unfold masks
  rw [longer, List.getLastD_concat]
  by_cases complete : announced icw1 ≤ words.length
  · rw [if_pos (stageAfter_eq_ready_iff.mpr complete), if_pos (by omega)]
  · rw [if_neg (mt stageAfter_eq_ready_iff.mp complete), if_neg (by omega), if_neg (by omega)]

end Setup

namespace Chip

variable {position : Position} {c : Chip position} {icw1 : UInt8} {words : List UInt8}

/-- ICW1 asks for nothing before the first word. -/
theorem askedBy_writeCommand (c : Chip position) (initializes : Command.bit icw1 4 = true) :
    (c.writeCommand icw1).regs.setup.AskedBy icw1 [] := by
  have wrote : (c.writeCommand icw1).regs.setup =
      ⟨∅, 0, .awaitingIcw2, false, false, Command.bit icw1 0, Command.bit icw1 1⟩ := by
    rw [regs_writeCommand_of_icw1 c initializes]
    rfl
  have noIcw4 : Setup.icw4? icw1 [] = none := by simp [Setup.icw4?]
  rw [wrote]
  constructor
  case specialFullyNested | autoEoi => rw [noIcw4]; rfl
  all_goals rfl

theorem setup_writeCommand {value : UInt8} (h : ¬ (Command.decode value).Initializes) :
    (c.writeCommand value).regs.setup = c.regs.setup := by
  obtain ⟨_, _, _, _, _, _, eq⟩ := c.regs_writeCommand h
  rw [eq]
  rfl

/-- What a word fills depends on the stage. -/
theorem setup_writeData (c : Chip position) (value : UInt8) :
    (c.writeData value).regs.setup = { c.regs.setup with
      imr := if c.regs.stage = .ready then .ofByte value else c.regs.imr
      base := if c.regs.stage = .awaitingIcw2 then value &&& 0xF8 else c.regs.base
      autoEoi := if c.regs.stage = .awaitingIcw4 then Command.bit value 1 else c.regs.autoEoi
      specialFullyNested :=
        if c.regs.stage = .awaitingIcw4 then Command.bit value 4 else c.regs.specialFullyNested
      stage :=
        match c.regs.stage with
        | .awaitingIcw2 => if c.regs.single then afterIcw3 c.regs else .awaitingIcw3
        | .awaitingIcw3 => afterIcw3 c.regs
        | .awaitingIcw4 | .ready => .ready } := by
  unfold writeData
  cases stage : c.regs.stage <;> simp [Registers.setup, refresh, modify, stage]

/-- Each word continues the setup. -/
theorem askedBy_writeData (h : c.regs.setup.AskedBy icw1 words) (value : UInt8) :
    (c.writeData value).regs.setup.AskedBy icw1 (words ++ [value]) := by
  have stage : c.regs.stage = Setup.stageAfter icw1 words.length := h.stage
  have single : c.regs.single = Command.bit icw1 1 := h.single
  have expectIcw4 : c.regs.expectIcw4 = Command.bit icw1 0 := h.expectIcw4
  rw [setup_writeData]
  constructor
  case base => rw [Setup.base_append icw1, ← stage, ← h.base]; rfl
  case stage =>
    rw [List.length_append, List.length_singleton, Setup.stageAfter_succ, ← stage]
    simp only [afterIcw3, single, expectIcw4]
  case specialFullyNested =>
    rw [Setup.icw4?_append, apply_ite (Option.any _), ← stage, ← h.specialFullyNested]; rfl
  case autoEoi => rw [Setup.icw4?_append, apply_ite (Option.any _), ← stage, ← h.autoEoi]; rfl
  case imr => rw [Setup.masks_append, ← stage, ← h.imr]; rfl
  case expectIcw4 => exact expectIcw4
  case single => exact single

end Chip

end PicCascade
