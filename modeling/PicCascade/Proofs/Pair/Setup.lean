import PicCascade.Proofs.Chip.Setup
import PicCascade.Proofs.Pair.Requests

/-!
# Initialisations among other traffic

Once a chip has got its ICW1, its setup depends on nothing but ICW1 and the words on its data port.
Other operations may come in between at will, short of a further ICW1 to the chip or a reset:
commands, reads and polls, changes of the lines, acknowledge cycles, and whatever is done to the
other chip.

Results:
* `Change.askedBy`: a data write to the chip continues the setup, and any other operation keeps it.
* `setup_after_words`: the setup after ICW1 and a history, in terms of the data writes in it.
-/

namespace PicCascade.Pair

variable {Wire : Type} {p q : Pair Wire} {op : Operation Wire} {position : Position}
  {icw1 : UInt8} {words : List UInt8}

/-- The byte that an operation writes to the data port of a chip. -/
def dataWrite? (config : Config) (position : Position) : Operation Wire → Option UInt8
  | .writePort port value =>
    if config.decode? port = some (.data position) then some value else none
  | _ => none

/-- The bytes that a history writes to the data port of a chip, in order. -/
def dataWrites (config : Config) (position : Position) (history : List (Operation Wire)) :
    List UInt8 :=
  history.filterMap (dataWrite? config position)

theorem dataWrite?_of_ne {config : Config} {port : UInt16} {value : UInt8}
    (other : config.decode? port ≠ some (.data position)) :
    dataWrite? config position (.writePort port value : Operation Wire) = none :=
  if_neg other

/-! ## One operation -/

/-- Short of a reset, a data write to the chip continues its setup, and any other operation keeps
it. -/
theorem Change.askedBy (h : p.Change op q) (keeps : KeepsChip position p op)
    (before : (p.chip position).regs.setup.AskedBy icw1 words) :
    (q.chip position).regs.setup.AskedBy icw1
      (words ++ (dataWrite? p.config position op).toList) := by
  have same {r : Registers} (kept : r.setup = (p.chip position).regs.setup) :
      r.setup.AskedBy icw1 (words ++ []) := by
    rw [kept, List.append_nil]
    exact before
  cases h with
  | line => exact same (of_modifyChip (P := fun r => r.setup = _) rfl fun _ h => h)
  | writeCommand decoded =>
    rw [dataWrite?_of_ne (by simp [decoded])]
    refine same (of_modifyChip (P := fun r => r.setup = _) rfl fun eq kept => ?_)
    subst eq
    exact (Chip.setup_writeCommand (keeps decoded)).trans kept
  | @writeData port value other decoded =>
    by_cases own : other = position
    · subst own
      have written : dataWrite? p.config other (.writePort port value : Operation Wire) =
          some value := if_pos decoded
      rw [written, chip_modifyChip_self]
      exact Chip.askedBy_writeData before value
    · rw [dataWrite?_of_ne (by simpa [decoded] using own), chip_modifyChip_of_ne p (Ne.symm own)]
      exact same rfl
  | writeElcr decoded =>
    rw [dataWrite?_of_ne (by simp [decoded])]
    exact same (of_modifyChip (P := fun r => r.setup = _) rfl fun _ h => h)
  | noWrite decoded =>
    rw [dataWrite?_of_ne (by simp [decoded])]
    exact same rfl
  | pollPrimary decoded asked poll | intackPrimary poll | pollSecondary decoded asked poll
  | intackSecondary offered poll =>
    obtain ⟨_, _, regs⟩ := poll.regs_chip position
    have polled := congrArg Registers.setup regs
    refine same ?_
    cases position with
    | primary => exact polled
    | secondary => exact polled
  | acknowledge cycle | asserted _ cycle =>
    obtain ⟨_, _, _, regs⟩ := cycle.regs_chip position
    have cycled := congrArg Registers.setup regs
    exact same cycled
  | deviceReset | coldReset | refused | restored => exact keeps.elim
  | _ => exact same (by cases position <;> rfl)

theorem askedBy_perform (settled : p.Settled) (keeps : KeepsChip position p op)
    (before : (p.chip position).regs.setup.AskedBy icw1 words) :
    ((p.perform op).pair.chip position).regs.setup.AskedBy icw1
      (words ++ (dataWrite? p.config position op).toList) := by
  obtain ⟨q, change, eq⟩ := perform_eq_settle settled op
  obtain ⟨irr, lastHigh, regs⟩ := regs_chip_settle q () position
  rw [eq, regs]
  exact change.askedBy keeps before

/-! ## Whole histories -/

theorem askedBy_performAll (settled : p.Settled)
    (before : (p.chip position).regs.setup.AskedBy icw1 words) {history : List (Operation Wire)}
    (along : p.Along (KeepsChip position) history) :
    ((p.performAll history).pair.chip position).regs.setup.AskedBy icw1
      (words ++ dataWrites p.config position history) := by
  induction history generalizing p words with
  | nil =>
    rw [dataWrites, List.filterMap_nil, List.append_nil]
    exact before
  | cons op history ih =>
    -- the words so far are general, since this step may have added one
    obtain ⟨keeps, others⟩ := along
    have continued := ih (settled_perform settled op) (askedBy_perform settled keeps before) others
    rw [config_perform settled, List.append_assoc] at continued
    have split : (dataWrite? p.config position op).toList ++ dataWrites p.config position history =
        dataWrites p.config position (op :: history) := by
      unfold dataWrites
      rw [List.filterMap_cons]
      cases dataWrite? p.config position op <;> rfl
    rw [split] at continued
    exact continued

theorem askedBy_icw1 (settled : p.Settled) {port : UInt16}
    (decoded : p.config.decode? port = some (.command position))
    (initializes : Command.bit icw1 4 = true) :
    ((p.perform (.writePort port icw1)).pair.chip position).regs.setup.AskedBy icw1 [] := by
  obtain ⟨q, change, eq⟩ := perform_eq_settle settled (.writePort port icw1)
  obtain ⟨irr, lastHigh, regs⟩ := regs_chip_settle q () position
  rw [eq, regs]
  cases change with
  | writeCommand decoded' =>
    cases decoded.symm.trans decoded'
    rw [chip_modifyChip_self]
    exact Chip.askedBy_writeCommand _ initializes
  | noWrite decoded' | writeData decoded' | writeElcr decoded' =>
    cases decoded.symm.trans decoded'

/-- No traffic disturbs an initialisation. Let ICW1 be written to a chip of a reachable pair, and
let any history follow that has no further ICW1 to the chip, no reset and no restore. Then the
number of words written to the data port of the chip tells the stage, the first word sets the vector
base, the last announced word is ICW4 if ICW1 announces one, and the latest word beyond the
announced ones is the mask. -/
theorem setup_after_words {config : Config} (reachable : Reachable config p) {port : UInt16}
    (decoded : config.decode? port = some (.command position))
    (initializes : Command.bit icw1 4 = true) {history : List (Operation Wire)}
    (along : (p.perform (.writePort port icw1)).pair.Along (KeepsChip position) history) :
    let words := dataWrites config position history
    let need := Setup.announced icw1
    let icw4? := Setup.icw4? icw1 words
    let now := ((p.perform (.writePort port icw1)).pair.performAll history).pair
    let regs := (now.chip position).regs
    regs.base = words.head?.elim 0 (· &&& 0xF8) ∧
      (regs.stage ≠ .ready ↔ words.length < need) ∧
      (regs.stage = .awaitingIcw2 ↔ words.length = 0) ∧
      (regs.stage = .awaitingIcw3 ↔ words.length = 1 ∧ Command.bit icw1 1 = false) ∧
      (regs.stage = .awaitingIcw4 ↔ words.length + 1 = need ∧ Command.bit icw1 0 = true) ∧
      regs.specialFullyNested = icw4?.any (Command.bit · 4) ∧
      regs.autoEoi = icw4?.any (Command.bit · 1) ∧
      regs.imr = if need < words.length then .ofByte (words.getLastD 0) else ∅ := by
  intro words need icw4? now regs
  have sound := reachable.sound
  rw [← sound.config_eq] at decoded
  have kept := config_perform sound.settled (.writePort port icw1)
  have begun := askedBy_icw1 sound.settled decoded initializes
  have asked := askedBy_performAll (settled_perform sound.settled _) begun along
  rw [kept, sound.config_eq, List.nil_append] at asked
  have stage : regs.stage = Setup.stageAfter icw1 words.length := asked.stage
  have busy : regs.stage ≠ .ready ↔ words.length < need := by
    rw [stage, Ne, Setup.stageAfter_eq_ready_iff, Nat.not_le]
  refine ⟨asked.base, busy, ?_, ?_, ?_, asked.specialFullyNested, asked.autoEoi, asked.imr⟩
  · rw [stage]
    exact Setup.stageAfter_eq_icw2_iff
  · rw [stage]
    exact Setup.stageAfter_eq_icw3_iff
  · rw [stage]
    exact Setup.stageAfter_eq_icw4_iff

/-- The words of an initialisation of the primary, mixed with a poll command and its answer, changes
of lines, commands, an acknowledge cycle and an initialisation of the secondary. -/
def mixedSetup : List (Operation Unit) :=
  [.setLine 5 true, .writePort 0x20 0x0C, .writePort 0xA0 0x11, .writePort 0x21 0x6B,
    .readPort 0x20, .writePort 0xA1 0x70, .acknowledge, .writePort 0x21 0x04,
    .writePort 0x20 0x20, .writePort 0xA1 0x02, .setLine 5 false, .writePort 0x21 0x13,
    .readPort 0x21, .writePort 0x21 0xFF, .writePort 0xA1 0x01, .writePort 0x21 0xEE]

theorem setup_after_words_mixedSetup :
    let p : Pair Unit := ((new {}).performAll [.setLine 1 true, .writePort 0x21 0x0F]).pair
    let now := ((p.perform (.writePort 0x20 0x11)).pair.performAll mixedSetup).pair
    let regs := (now.chip .primary).regs
    (p.perform (.writePort 0x20 0x11)).pair.Along (KeepsChip .primary) mixedSetup ∧
      dataWrites {} .primary mixedSetup = [0x6B, 0x04, 0x13, 0xFF, 0xEE] ∧
      regs.base = 0x68 ∧ regs.autoEoi = true ∧ regs.imr = .ofByte 0xEE := by
  intro p
  dsimp only
  have along : (p.perform (.writePort 0x20 0x11)).pair.Along (KeepsChip .primary) mixedSetup := by
    decide +kernel
  have words : dataWrites {} .primary mixedSetup = [0x6B, 0x04, 0x13, 0xFF, 0xEE] := by
    decide +kernel
  have reachable : Reachable {} p := ⟨_, rfl⟩
  have decoded : ({} : Config).decode? 0x20 = some (.command .primary) := by decide
  obtain ⟨base, -, -, -, -, -, autoEoi, imr⟩ :=
    setup_after_words reachable decoded (by decide) along
  rw [words] at base autoEoi imr
  exact ⟨along, words, base, autoEoi, imr⟩

end PicCascade.Pair
