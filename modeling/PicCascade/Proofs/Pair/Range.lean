import PicCascade.Proofs.Pair.Bytes
import PicCascade.Proofs.Pair.Restore

/-!
# Ranges of the registers

The pair on bytes runs from power-on without a fault, so its registers keep the ranges of the
registers that they stand for. A snapshot that is loaded on the way can be any byte string: its
records are refused unless what they hold is in range. If all snapshots that are loaded on the way
are genuine, that is saved in runs of this kind, the vector base and the stage of the initialisation
keep to what the initialisation words can leave, and no vector wraps.

Results:
* `Change.programmed`: what the initialisation words leave is kept by every operation, provided that
  a loaded snapshot has it.
* `Genuine.programmed`: it holds along every run in which all loaded snapshots are genuine.
* `acknowledge?_of_programmed`: a vector is then the sum of its base and its line, without wrapping.
* `runs_in_range`: all this along every run of the pair on bytes.
-/

namespace PicCascade

open Checked

/-! ## Ranges of bytes -/

/-- The bytes that stand for a line, a stage and trigger modes do so. -/
structure RegisterFile.InRange (r : RegisterFile) (writable : UInt8) : Prop where
  top : r.top ≤ 7
  stage : r.stage ≤ 3
  elcr : r.elcr &&& ~~~writable = 0

theorem Registers.inRange_bytes {r : Registers} {writable : LineSet 8}
    (wired : ∀ i ∈ r.elcr, i ∈ writable) : r.bytes.InRange writable.toByte where
  top := Line.toByte_le r.top
  stage := InitStage.toByte_le r.stage
  elcr := by
    have none : r.elcr \ writable = ∅ := by
      ext i
      simpa using wired i
    exact LineSet.toByte_eq_zero.mpr none

/-- On a mask that is not empty, the search stops at a distance of at most 7, at a line of the mask. -/
theorem Registers.distance?_bytes_le (r : Registers) {mask : UInt8} (nonzero : mask ≠ 0) :
    ∃ distance, r.bytes.distance? mask = some distance ∧ distance ≤ 7 ∧
      mask &&& 1 <<< ((distance + r.bytes.top) &&& 7) ≠ 0 := by
  have found := RegisterFile.distance?_bytes r (LineSet.ofByte mask)
  cases first : (LineSet.ofByte mask).highest? r.top with
  | none => exact absurd (LineSet.toByte_eq_zero.mpr (LineSet.highest?_eq_none_iff.mp first)) nonzero
  | some i =>
    rw [first] at found
    refine ⟨_, found, Line.toByte_le _, ?_⟩
    have line : (Line.toByte (Line.rank r.top i) + Line.toByte r.top) &&& 7 = Line.toByte i :=
      Line.rank_add_top r.top i
    show mask &&& 1 <<< ((Line.toByte (Line.rank r.top i) + Line.toByte r.top) &&& 7) ≠ 0
    rw [line, Line.one_shiftLeft]
    have present := (LineSet.highest?_eq_some_iff.mp first).1
    exact fun absent => LineSet.and_mask_eq_zero (s := .ofByte mask).mp absent present

namespace Line

theorem getD_map_toByte (line : Option Line) :
    (line.map toByte).getD 7 = toByte (line.getD spurious) := by
  cases line <;> rfl

theorem map_toByte_eq_cascade {line : Option Line} :
    line.map toByte = some 2 ↔ line = some cascade := by
  cases line with
  | none => simp
  | some i =>
    rw [Option.map_some, Option.some.injEq, Option.some.injEq]
    exact toByte_inj (j := cascade)

end Line

namespace Pair

variable {Wire : Type} {p q : Pair Wire}

theorem answer_readIntack_le (p : Pair Wire) : p.readIntack.answer ≤ 15 := by
  have bound : ∀ position i, Line.global position i ≤ 15 := by
    intro position
    cases position <;> decide
  unfold Pair.readIntack
  dsimp only
  split
  · exact bound .secondary _
  · exact bound .primary _

end Pair

/-! ## What the initialisation words leave -/

/-- The vector base is a multiple of 8, a third word is awaited by a chip in cascade mode only, and a
fourth one by a chip that was told to expect it. -/
structure Registers.Programmed (r : Registers) : Prop where
  base : r.base &&& 7 = 0
  icw3 : r.stage = .awaitingIcw3 → r.single = false
  icw4 : r.stage = .awaitingIcw4 → r.expectIcw4 = true

/-- Power-on registers are so, whatever the trigger modes. -/
theorem Registers.programmed_powerOn (elcr : LineSet 8) : Programmed { elcr } :=
  ⟨UInt8.zero_and, by simp, by simp⟩

/-- The same of registers as bytes. -/
structure RegisterFile.Programmed (r : RegisterFile) : Prop where
  base : r.base &&& 7 = 0
  icw3 : r.stage = 2 → r.single = false
  icw4 : r.stage = 3 → r.expectIcw4 = true

theorem Registers.Programmed.bytes {r : Registers} (h : r.Programmed) : r.bytes.Programmed := by
  have icw3 : r.stage.toByte = 2 → r.stage = .awaitingIcw3 := by
    cases r.stage <;> decide
  have icw4 : r.stage.toByte = 3 → r.stage = .awaitingIcw4 := by
    cases r.stage <;> decide
  exact ⟨h.base, fun stage => h.icw3 (icw3 stage), fun stage => h.icw4 (icw4 stage)⟩

namespace Chip

variable {position : Position} {c : Chip position}

theorem programmed_writeCommand (h : c.regs.Programmed) (value : UInt8) :
    (c.writeCommand value).regs.Programmed := by
  by_cases initializes : (Command.decode value).Initializes
  · obtain ⟨single, expectIcw4, eq⟩ := c.regs_writeCommand_of_initializes initializes
    rw [eq]
    constructor <;> simp
  · obtain ⟨_, _, _, _, _, _, eq⟩ := c.regs_writeCommand initializes
    rw [eq]
    exact ⟨h.base, h.icw3, h.icw4⟩

theorem afterIcw3_ne (r : Registers) : afterIcw3 r ≠ .awaitingIcw3 := by
  unfold afterIcw3
  split <;> simp

theorem expectIcw4_of_afterIcw3 {r : Registers} (h : afterIcw3 r = .awaitingIcw4) :
    r.expectIcw4 = true := by
  unfold afterIcw3 at h
  split at h
  · assumption
  · cases h

theorem programmed_writeData (h : c.regs.Programmed) (value : UInt8) :
    (c.writeData value).regs.Programmed := by
  unfold writeData
  cases stage : c.regs.stage with
  | ready => exact ⟨h.base, h.icw3, h.icw4⟩
  | awaitingIcw2 =>
    have base : value &&& 0xF8 &&& 7 = 0 := by
      rw [UInt8.and_assoc]
      exact UInt8.and_zero
    show Registers.Programmed { c.regs with
      base := value &&& 0xF8
      stage := if c.regs.single then afterIcw3 c.regs else .awaitingIcw3 }
    by_cases single : c.regs.single = true
    · rw [if_pos single]
      exact ⟨base, fun icw3 => absurd icw3 (afterIcw3_ne c.regs), expectIcw4_of_afterIcw3⟩
    · rw [if_neg single]
      exact ⟨base, fun _ => Bool.eq_false_iff.mpr single, by simp⟩
  | awaitingIcw3 =>
    exact ⟨h.base, fun icw3 => absurd icw3 (afterIcw3_ne c.regs), expectIcw4_of_afterIcw3⟩
  | awaitingIcw4 => exact ⟨h.base, by simp, by simp⟩

/-- A vector is the sum of the base and the number of the line, and does not wrap. -/
theorem vector_of_programmed (h : c.regs.Programmed) (i : Line) :
    (c.vector i).toNat = c.regs.base.toNat + i.val ∧ c.vector i &&& 7 = Line.toByte i := by
  have multiple : c.regs.base.toNat % 8 = 0 := by rw [← Line.toNat_and_seven, h.base]; rfl
  have bound := c.regs.base.toNat_lt
  have line := i.isLt
  have number := Line.toNat_toByte i
  have sum : (c.vector i).toNat = c.regs.base.toNat + i.val := by
    rw [vector, UInt8.toNat_add, number]
    exact Nat.mod_eq_of_lt (by omega)
  refine ⟨sum, UInt8.toNat_inj.mp ?_⟩
  rw [Line.toNat_and_seven, sum, number]
  omega

end Chip

namespace Pair

variable {Wire : Type} {p q : Pair Wire}

/-- Both chips have what the initialisation words leave. -/
structure Programmed (p : Pair Wire) : Prop where
  primary : p.primary.regs.Programmed
  secondary : p.secondary.regs.Programmed

theorem Programmed.chip (h : p.Programmed) (position : Position) :
    (p.chip position).regs.Programmed := by
  cases position with
  | primary => exact h.primary
  | secondary => exact h.secondary

theorem Programmed.modifyChip (h : p.Programmed) {position : Position}
    {f : Chip position → Chip position}
    (kept : ∀ c : Chip position, c.regs.Programmed → (f c).regs.Programmed) :
    (p.modifyChip position f).Programmed := by
  cases position with
  | primary => exact ⟨kept _ h.primary, h.secondary⟩
  | secondary => exact ⟨h.primary, kept _ h.secondary⟩

theorem Programmed.settle {α : Type} (h : p.Programmed) (a : α) : (p.settle a).pair.Programmed := by
  have kept (position : Position) : ((p.settle a).pair.chip position).regs.Programmed := by
    obtain ⟨irr, lastHigh, eq⟩ := p.regs_chip_settle a position
    have before := h.chip position
    rw [eq]
    exact ⟨before.base, before.icw3, before.icw4⟩
  exact ⟨kept .primary, kept .secondary⟩

theorem AcknowledgeChange.programmed (h : p.Programmed) (cycle : p.AcknowledgeChange q) :
    q.Programmed := by
  have own {position : Position} {c : Chip position} (i : Line) (kept : c.regs.Programmed) :
      (c.acknowledge i).regs.Programmed := ⟨kept.base, kept.icw3, kept.icw4⟩
  cases cycle with
  | idle => exact h
  | own | spurious => exact ⟨own _ h.primary, h.secondary⟩
  | cascaded => exact ⟨own _ h.primary, own _ h.secondary⟩

theorem PrimaryPoll.programmed (h : p.Programmed) (poll : p.PrimaryPoll q) : q.Programmed := by
  cases poll with
  | idle => exact h
  | own => exact ⟨⟨h.primary.base, h.primary.icw3, h.primary.icw4⟩, h.secondary⟩

theorem SecondaryPoll.programmed (h : p.Programmed) (poll : p.SecondaryPoll q) :
    q.Programmed := by
  cases poll with
  | idle => exact h
  | own =>
    exact ⟨⟨h.primary.base, h.primary.icw3, h.primary.icw4⟩,
      ⟨h.secondary.base, h.secondary.icw3, h.secondary.icw4⟩⟩

/-- What the initialisation words leave is kept by every operation, provided that a loaded snapshot
has it. -/
theorem Change.programmed {op : Operation Wire} (change : p.Change op q) (h : p.Programmed)
    (loaded : ∀ bytes saved, op = .restore bytes → Saved.ofBytes bytes = .ok saved →
      saved.primary.Programmed ∧ saved.secondary.Programmed) : q.Programmed := by
  have primary := h.primary
  have secondary := h.secondary
  cases change with
  | @line n level line =>
    have counted : Programmed { p with counters := p.counters.record ⟨n.toNat, line⟩ level } :=
      ⟨primary, secondary⟩
    exact counted.modifyChip fun c kept => ⟨kept.base, kept.icw3, kept.icw4⟩
  | writeElcr => exact h.modifyChip fun c kept => ⟨kept.base, kept.icw3, kept.icw4⟩
  | writeCommand => exact h.modifyChip fun c kept => Chip.programmed_writeCommand kept _
  | writeData => exact h.modifyChip fun c kept => Chip.programmed_writeData kept _
  | acknowledge cycle | asserted _ cycle => exact cycle.programmed h
  | pollPrimary _ _ poll | intackPrimary poll =>
    have after := poll.programmed h
    exact ⟨⟨after.primary.base, after.primary.icw3, after.primary.icw4⟩, after.secondary⟩
  | pollCascade => exact ⟨⟨primary.base, primary.icw3, primary.icw4⟩, secondary⟩
  | pollSecondary _ _ poll =>
    have after := poll.programmed h
    exact ⟨after.primary, ⟨after.secondary.base, after.secondary.icw3, after.secondary.icw4⟩⟩
  | intackSecondary _ poll =>
    have retired : Programmed { p with primary := p.primary.retire Line.cascade } :=
      ⟨⟨primary.base, primary.icw3, primary.icw4⟩, secondary⟩
    have after := poll.programmed retired
    exact ⟨⟨after.primary.base, after.primary.icw3, after.primary.icw4⟩, after.secondary⟩
  | deviceReset | coldReset => constructor <;> exact Registers.programmed_powerOn _
  | restored decoded =>
    obtain ⟨first, second⟩ := loaded _ _ rfl decoded
    exact ⟨⟨first.base, first.icw3, first.icw4⟩, ⟨second.base, second.icw3, second.icw4⟩⟩
  | _ => exact ⟨primary, secondary⟩

/-! ## Genuine snapshots -/

/-- Every snapshot that the history loads was saved in a run from power-on whose history is of the
same kind. -/
inductive Genuine : List (Operation Wire) → Prop
  | nil : Genuine []
  | other {op : Operation Wire} {history : List (Operation Wire)}
      (notRestore : ∀ bytes, op ≠ .restore bytes) (rest : Genuine history) :
      Genuine (op :: history)
  | restore {config : Config} {source history : List (Operation Wire)} (saved : Genuine source)
      (rest : Genuine history) :
      Genuine (.restore ((new config).performAll source).pair.save :: history)

theorem programmed_new (config : Config) : (new config : Pair Wire).Programmed := by
  constructor <;> exact Registers.programmed_powerOn _

theorem Programmed.perform (settled : p.Settled) (h : p.Programmed) {op : Operation Wire}
    (loaded : ∀ bytes saved, op = .restore bytes → Saved.ofBytes bytes = .ok saved →
      saved.primary.Programmed ∧ saved.secondary.Programmed) :
    (p.perform op).pair.Programmed := by
  obtain ⟨q, change, eq⟩ := perform_eq_settle settled op
  rw [eq]
  exact (change.programmed h loaded).settle ()

/-- What the initialisation words leave is kept along every run in which all loaded snapshots are
genuine. -/
theorem Genuine.programmed {history : List (Operation Wire)} (genuine : Genuine history)
    (settled : p.Settled) (h : p.Programmed) : (p.performAll history).pair.Programmed := by
  induction genuine generalizing p with
  | nil => exact h
  | other notRestore rest ih =>
    refine ih (settled_perform settled _) (h.perform settled ?_)
    exact fun bytes saved eq => absurd eq (notRestore bytes)
  | @restore config source history saved rest ihSource ih =>
    refine ih (settled_perform settled _) (h.perform settled ?_)
    intro bytes saved eq decoded
    cases eq
    have before := ihSource sound_new.settled (programmed_new config)
    rw [ofBytes_save] at decoded
    cases decoded
    exact ⟨before.primary, before.secondary⟩

/-! ## Vectors -/

/-- An acknowledge cycle answers the vector of the line that the chip in charge offers, or that of
the line reported when it offers none. The secondary is in charge if the primary offers the cascade
line. -/
theorem answer_acknowledge_eq (p : Pair Wire) :
    ∃ position, (position = .secondary ↔ p.primary.pending? = some Line.cascade) ∧
      p.acknowledge.answer =
        (p.chip position).vector ((p.chip position).pending?.getD Line.spurious) := by
  cases offered : p.primary.pending? with
  | none =>
    refine ⟨.primary, by simp, ?_⟩
    rw [acknowledge_of_none offered]
    simp [chip, offered, settle]
  | some i =>
    by_cases cascade : i = Line.cascade
    · subst cascade
      refine ⟨.secondary, by simp, ?_⟩
      cases behind : p.secondary.pending? with
      | none =>
        rw [acknowledge_of_spurious offered behind]
        simp [chip, behind, settle]
      | some j =>
        rw [acknowledge_of_cascaded offered behind]
        simp [chip, behind, settle]
    · refine ⟨.primary, by simp [cascade], ?_⟩
      rw [acknowledge_of_own offered cascade]
      simp [chip, offered, settle]

/-- A vector is that of the line that the chip in charge offers, or of line 7 if it offers none. It is
the sum of the line and the base, and its low three bits are the line. -/
theorem acknowledge?_of_programmed (h : p.Programmed) :
    ∃ cycle position line, p.bytes.acknowledge? = some cycle ∧
      (position = .secondary ↔ p.bytes.primary.pending? = some (some 2)) ∧
      (p.bytes.chip position).pending? = some line ∧
      cycle.answer.toNat = (p.bytes.chip position).regs.base.toNat + (line.getD 7).toNat ∧
      cycle.answer &&& 7 = line.getD 7 := by
  obtain ⟨position, inCharge, answer⟩ := answer_acknowledge_eq p
  obtain ⟨sum, low⟩ := Chip.vector_of_programmed (h.chip position)
    ((p.chip position).pending?.getD Line.spurious)
  have offered : p.bytes.primary.pending? = some (p.primary.pending?.map Line.toByte) :=
    BytePair.pending?_chip_bytes p .primary
  have answered : p.acknowledge.bytes.answer = p.acknowledge.answer := rfl
  refine ⟨_, position, (p.chip position).pending?.map Line.toByte,
    BytePair.acknowledge?_bytes p, ?_, BytePair.pending?_chip_bytes p position, ?_, ?_⟩
  · rw [offered, Option.some.injEq, Line.map_toByte_eq_cascade]
    exact inCharge
  · rw [Line.getD_map_toByte, Line.toNat_toByte, answered, answer, BytePair.chip_bytes]
    exact sum
  · rw [Line.getD_map_toByte, answered, answer]
    exact low

/-! ## Every run -/

/-- On bytes, every run from power-on ends without a fault and like the run of the pair. Then the
registers are in range, the search in a mask that is not empty stops at a distance of at most 7, and
a poll of the pair answers a number up to 15. If all loaded snapshots were genuine, the vector bases
and the stages of initialisation are moreover such as the initialisation words leave them, and an
acknowledge cycle answers the sum of the base and the line without wrapping. -/
theorem runs_in_range (config : Config) (history : List (Operation Wire)) :
    ∃ o, (BytePair.new config).performAll? history = some o ∧
      o = ((new config).performAll history).bytes ∧
      (∀ position, (o.pair.chip position).regs.InRange (config.chip position).elcrMask.toByte) ∧
      (∀ position mask, mask ≠ 0 →
        ∃ distance, (o.pair.chip position).regs.distance? mask = some distance ∧ distance ≤ 7 ∧
          mask &&& 1 <<< ((distance + (o.pair.chip position).regs.top) &&& 7) ≠ 0) ∧
      (∃ polled, o.pair.readIntack? = some polled ∧ polled.answer ≤ 15) ∧
      (Genuine history →
        (∀ position, (o.pair.chip position).regs.Programmed) ∧
          ∃ cycle position line, o.pair.acknowledge? = some cycle ∧
            (position = .secondary ↔ o.pair.primary.pending? = some (some 2)) ∧
            (o.pair.chip position).pending? = some line ∧
            cycle.answer.toNat =
              (o.pair.chip position).regs.base.toNat + (line.getD 7).toNat ∧
            cycle.answer &&& 7 = line.getD 7) := by
  let p : Pair Wire := ((new config).performAll history).pair
  have sound : Sound config p := sound_new.performAll history
  have chip (position : Position) : p.bytes.chip position = (p.chip position).bytes :=
    BytePair.chip_bytes p position
  have run := BytePair.performAll?_bytes (new config) history
  rw [BytePair.new_bytes] at run
  refine ⟨((new config).performAll history).bytes, run, rfl, fun position => ?_, fun position mask nonzero => ?_,
    ⟨_, BytePair.readIntack?_bytes p, answer_readIntack_le p⟩, fun genuine => ?_⟩
  · show (p.bytes.chip position).regs.InRange _
    rw [chip, ← sound.config_eq]
    exact Registers.inRange_bytes (sound.wired.chip position)
  · show ∃ distance, (p.bytes.chip position).regs.distance? mask = some distance ∧ distance ≤ 7 ∧
      mask &&& 1 <<< ((distance + (p.bytes.chip position).regs.top) &&& 7) ≠ 0
    rw [chip]
    exact Registers.distance?_bytes_le _ nonzero
  · have programmed : p.Programmed := genuine.programmed sound_new.settled (programmed_new config)
    refine ⟨fun position => ?_, acknowledge?_of_programmed programmed⟩
    show (p.bytes.chip position).regs.Programmed
    rw [chip]
    exact (programmed.chip position).bytes

/-- The primary has received ICW1 and ICW2 and awaits ICW3. -/
def halfInitialised : List (Operation Unit) := [.writePort 0x20 0x11, .writePort 0x21 0x77]

/-- A pair is restored in the middle of an initialisation, which then goes on, and line 3 requests
service. -/
def initialisedAfterRestore : List (Operation Unit) :=
  [.restore ((new {}).performAll halfInitialised).pair.save, .writePort 0x21 0x04,
    .writePort 0x21 0x01, .setLine 3 true]

/-- The vector of line 3 is 0x73. -/
theorem runs_in_range_initialisedAfterRestore :
    Genuine initialisedAfterRestore ∧
      ∃ o cycle, (BytePair.new {}).performAll? initialisedAfterRestore = some o ∧
        o.pair.acknowledge? = some cycle ∧ cycle.answer.toNat = 0x70 + 3 := by
  have genuine : Genuine initialisedAfterRestore :=
    .restore (.other (by simp) <| .other (by simp) .nil)
      (.other (by simp) <| .other (by simp) <| .other (by simp) .nil)
  have base : ((new {}).performAll initialisedAfterRestore).pair.primary.regs.base = 0x70 := by
    decide +kernel
  have requested : ((new {}).performAll initialisedAfterRestore).pair.primary.pending?.map
      Line.toByte = some 3 := by decide +kernel
  obtain ⟨o, run, rfl, -, -, -, initialised⟩ := runs_in_range {} initialisedAfterRestore
  obtain ⟨-, cycle, position, line, answered, inCharge, offers, sum, -⟩ := initialised genuine
  have primary := BytePair.pending?_chip_bytes
    ((new {}).performAll initialisedAfterRestore).pair .primary
  rw [chip, requested] at primary
  refine ⟨genuine, _, cycle, run, answered, ?_⟩
  cases position with
  | secondary =>
    have cascade := primary.symm.trans (inCharge.mp rfl)
    exact absurd cascade (by decide)
  | primary =>
    have three := Option.some.inj (primary.symm.trans offers)
    rw [← three] at sum
    rw [sum]
    exact congrArg (fun base : UInt8 => base.toNat + 3) base

end Pair

end PicCascade
