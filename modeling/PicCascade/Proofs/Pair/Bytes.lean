import PicCascade.Pair.Bytes
import PicCascade.Proofs.Chip.Bytes.Record

/-!
# The pair on bytes never faults

Every operation of the pair on bytes, and so every run, gives the bytes of what the operation of the
pair gives.

Results:
* `ByteSaved.ofBytes_eq_map`: a snapshot decodes to the bytes of what the pair decodes it to.
* `BytePair.poll?_bytes`, `BytePair.readIntack?_bytes`: polls do not fault.
* `BytePair.perform?_bytes`: no operation faults.
* `BytePair.performAll?_bytes`: no run faults.
-/

namespace PicCascade

open Checked

/-! ## Saved states -/

namespace ByteSaved

open Snapshot

theorem registers_eq_map (c : Container) (tag : UInt16) :
    registers c tag = (Saved.registers c tag).map Registers.bytes := by
  unfold registers Saved.registers
  cases c.value? tag with
  | none => rfl
  | some bytes => exact RegisterFile.ofBytes_eq_map bytes

theorem ofContainer_eq_map (c : Container) :
    ofContainer c = (Saved.ofContainer c).map Saved.bytes := by
  unfold ofContainer Saved.ofContainer
  rw [registers_eq_map, registers_eq_map]
  cases c.requireMajor Saved.version.major with
  | error e => rfl
  | ok _ =>
    cases Saved.registers c Saved.primaryTag with
    | error e => rfl
    | ok primary =>
      cases Saved.registers c Saved.secondaryTag with
      | error e => rfl
      | ok secondary => cases c.bool? Saved.countingTag <;> rfl

/-- The snapshots that are refused are the same, and so are the errors. -/
theorem ofBytes_eq_map (bytes : List UInt8) :
    ofBytes bytes = (Saved.ofBytes bytes).map Saved.bytes := by
  unfold ofBytes Saved.ofBytes
  cases Container.parse Saved.device bytes with
  | error e => rfl
  | ok c => exact ofContainer_eq_map c

end ByteSaved

namespace BytePair

variable {Wire α : Type} (p : Pair Wire)

theorem chip_bytes (position : Position) : p.bytes.chip position = (p.chip position).bytes := by
  cases position <;> rfl

theorem pending?_chip_bytes (position : Position) :
    (p.bytes.chip position).pending? = some ((p.chip position).pending?.map Line.toByte) := by
  rw [chip_bytes]
  exact RegisterFile.pending?_bytes (p.chip position).regs

/-! ## Settling -/

theorem relay?_bytes : p.bytes.relay? = some p.relay.bytes := by
  unfold relay? Pair.relay
  show (if p.secondary.unforwarded then _ else _) = _
  split
  · have driven := ByteChip.setLine?_bytes p.primary Line.cascade p.secondary.output
    show (p.primary.bytes.setLine? _ p.secondary.output).bind _ = _
    rw [driven]
    rfl
  · rfl

theorem settle?_bytes (a : α) : p.bytes.settle? a = some (p.settle a).bytes := by
  have drive (q : Pair Wire) : q.bytes.drive = q.drive.bytes := by
    unfold BytePair.drive Pair.drive
    show (if q.primary.unforwarded then _ else _) = _
    split <;> rfl
  unfold settle?
  rw [relay?_bytes, Option.bind_eq_bind, Option.bind_some, drive]
  rfl

/-- Changing a chip and settling the pair faults only if changing the chip does. -/
theorem modifyChip?_settle? {position : Position}
    {f : ByteChip position → Option (ByteChip position)} {g : Chip position → Chip position}
    (h : ∀ c : Chip position, f c.bytes = some (g c).bytes) (a : α) :
    (p.bytes.modifyChip? position f).bind (·.settle? a) =
      some ((p.modifyChip position g).settle a).bytes := by
  have changed : p.bytes.modifyChip? position f = some (p.modifyChip position g).bytes := by
    cases position with
    | primary =>
      show (f p.primary.bytes).bind _ = _
      rw [h]
      rfl
    | secondary =>
      show (f p.secondary.bytes).bind _ = _
      rw [h]
      rfl
  rw [changed]
  exact settle?_bytes _ a

/-! ## Operations -/

theorem setLine?_bytes (n : UInt8) (level : Bool) :
    p.bytes.setLine? n level = some (p.setLine n level).bytes := by
  unfold setLine? Pair.setLine
  split
  · rename_i h
    rw [Line.ofGlobal_eq, ← Line.toByte_ofByte]
    exact modifyChip?_settle? { p with counters := p.counters.record ⟨n.toNat, h⟩ level }
      (fun c => ByteChip.setLine?_bytes c (Line.ofByte n) level) ()
  · rfl

theorem acknowledge?_bytes : p.bytes.acknowledge? = some p.acknowledge.bytes := by
  have primary : p.bytes.primary.pending? = some (p.primary.pending?.map Line.toByte) :=
    pending?_chip_bytes p .primary
  have secondary : p.bytes.secondary.pending? = some (p.secondary.pending?.map Line.toByte) :=
    pending?_chip_bytes p .secondary
  unfold acknowledge? Pair.acknowledge
  rw [primary, secondary]
  cases p.primary.pending? with
  | none => exact settle?_bytes p _
  | some i =>
    have taken : p.bytes.primary.acknowledge? (Line.toByte i) = some (p.primary.acknowledge i).bytes :=
      ByteChip.acknowledge?_bytes p.primary i
    simp only [Option.map_some, Option.bind_eq_bind, Option.bind_some, taken, Line.toByte_inj]
    by_cases cascade : i = Line.cascade
    · subst cascade
      rw [if_pos rfl, if_pos rfl]
      cases p.secondary.pending? with
      | none => exact settle?_bytes { p with primary := p.primary.acknowledge Line.cascade } _
      | some j =>
        have behind : p.bytes.secondary.acknowledge? (Line.toByte j) =
            some (p.secondary.acknowledge j).bytes := ByteChip.acknowledge?_bytes p.secondary j
        simp only [Option.map_some, behind, Option.bind_some]
        exact settle?_bytes { p with
          primary := p.primary.acknowledge Line.cascade
          secondary := p.secondary.acknowledge j } _
    · rw [if_neg cascade, if_neg cascade]
      exact settle?_bytes { p with primary := p.primary.acknowledge i } _

theorem acknowledgeIfAsserted?_bytes :
    p.bytes.acknowledgeIfAsserted? = some p.acknowledgeIfAsserted.bytes := by
  have primary : p.bytes.primary.pending? = some (p.primary.pending?.map Line.toByte) :=
    pending?_chip_bytes p .primary
  unfold acknowledgeIfAsserted? Pair.acknowledgeIfAsserted Pair.output
  rw [primary, acknowledge?_bytes, Option.bind_eq_bind, Option.bind_some, Option.isSome_map]
  split <;> rfl

theorem pollPrimary?_bytes :
    p.bytes.poll? .primary = some (Line.toByte p.pollPrimary.1, p.pollPrimary.2.bytes) := by
  have primary : p.bytes.primary.pending? = some (p.primary.pending?.map Line.toByte) :=
    pending?_chip_bytes p .primary
  unfold poll? Pair.pollPrimary
  dsimp only
  rw [primary]
  cases p.primary.pending? with
  | none => rfl
  | some i =>
    have retired : p.bytes.primary.retire? (Line.toByte i) = some (p.primary.retire i).bytes :=
      ByteChip.retire?_bytes p.primary i
    simp only [Option.map_some, Option.bind_eq_bind, Option.bind_some, retired, Line.toByte_inj,
      ByteChip.refresh?_bytes]
    split <;> rfl

theorem pollSecondary?_bytes :
    p.bytes.poll? .secondary = some (Line.toByte p.pollSecondary.1, p.pollSecondary.2.bytes) := by
  have secondary : p.bytes.secondary.pending? = some (p.secondary.pending?.map Line.toByte) :=
    pending?_chip_bytes p .secondary
  unfold poll? Pair.pollSecondary
  dsimp only
  rw [secondary]
  cases p.secondary.pending? with
  | none => rfl
  | some j =>
    have cascade : p.bytes.primary.retire? (Line.toByte Line.cascade) =
        some (p.primary.retire Line.cascade).bytes := ByteChip.retire?_bytes ..
    have retired : p.bytes.secondary.retire? (Line.toByte j) = some (p.secondary.retire j).bytes :=
      ByteChip.retire?_bytes ..
    simp only [Option.map_some, Option.bind_eq_bind, Option.bind_some, cascade, retired,
      ByteChip.refresh?_bytes]
    rfl

theorem poll?_bytes (position : Position) :
    p.bytes.poll? position = some (Line.toByte (p.poll position).1, (p.poll position).2.bytes) := by
  cases position with
  | primary => exact pollPrimary?_bytes p
  | secondary => exact pollSecondary?_bytes p

theorem readIntack?_bytes : p.bytes.readIntack? = some p.readIntack.bytes := by
  have selected (q : Pair Wire) (n : UInt8) := modifyChip?_settle? q
    (f := fun c : ByteChip .primary => some (c.withRegs { c.regs with readIsr := true }))
    (g := (·.modify fun r => { r with readIsr := true })) (fun c => rfl) n
  unfold readIntack? Pair.readIntack
  rw [pollPrimary?_bytes, Option.bind_eq_bind, Option.bind_some]
  dsimp only
  rw [Option.bind_eq_bind]
  by_cases cascade : p.pollPrimary.1 = Line.cascade
  · rw [if_pos (congrArg Line.toByte cascade), if_pos cascade, pollSecondary?_bytes,
      Option.bind_eq_bind, Option.bind_some]
    dsimp only
    rw [Line.add?_toByte_eight]
    exact selected p.pollPrimary.2.pollSecondary.2 _
  · rw [if_neg (mt Line.toByte_inj.mp cascade), if_neg cascade]
    exact selected p.pollPrimary.2 _

theorem readCommand?_bytes (position : Position) :
    p.bytes.readCommand? position = some (p.readCommand position).bytes := by
  have status : (p.chip position).bytes.status = (p.chip position).status := by
    unfold ByteChip.status Chip.status
    show (if (p.chip position).regs.readIsr then _ else _) = _
    split <;> rfl
  unfold readCommand? Pair.readCommand
  rw [chip_bytes, status, poll?_bytes]
  show (if (p.chip position).regs.poll then _ else _) = _
  split
  · exact modifyChip?_settle? (p.poll position).2
      (g := (·.modify fun r => { r with poll := false })) (fun c => rfl) _
  · rfl

theorem readPort?_bytes (port : UInt16) : p.bytes.readPort? port = some (p.readPort port).bytes := by
  have config : p.bytes.config = p.config := rfl
  unfold readPort? Pair.readPort
  rw [config]
  cases p.config.decode? port with
  | none => rfl
  | some register =>
    cases register with
    | command position => exact readCommand?_bytes p position
    | data position =>
      show some _ = some _
      rw [chip_bytes]
      rfl
    | elcr position =>
      show some _ = some _
      rw [chip_bytes]
      rfl

theorem writePort?_bytes (port : UInt16) (value : UInt8) :
    p.bytes.writePort? port value = some (p.writePort port value).bytes := by
  have config : p.bytes.config = p.config := rfl
  unfold writePort? Pair.writePort
  rw [config]
  cases p.config.decode? port with
  | none => rfl
  | some register =>
    cases register with
    | command position =>
      exact modifyChip?_settle? p (fun c => ByteChip.writeCommand?_bytes c value) _
    | data position => exact modifyChip?_settle? p (fun c => ByteChip.writeData?_bytes c value) none
    | elcr position =>
      let writable := (p.config.chip position).elcrMask
      exact modifyChip?_settle? p (g := (·.writeElcr writable value)) (fun c => rfl) none

theorem reset?_bytes (kind : Pair.ResetKind) :
    p.bytes.reset? kind = some (p.reset kind).bytes := by
  cases kind with
  | device =>
    have primary : p.bytes.primary.reset? = some p.primary.reset.bytes := ByteChip.reset?_bytes _
    have secondary : p.bytes.secondary.reset? = some p.secondary.reset.bytes :=
      ByteChip.reset?_bytes _
    unfold reset? Pair.reset
    dsimp only
    rw [primary, secondary]
    exact settle?_bytes { p with primary := p.primary.reset, secondary := p.secondary.reset } ()
  | cold =>
    have primary : p.bytes.primary.coldReset? = some p.primary.coldReset.bytes :=
      ByteChip.coldReset?_bytes _
    have secondary : p.bytes.secondary.coldReset? = some p.secondary.coldReset.bytes :=
      ByteChip.coldReset?_bytes _
    unfold reset? Pair.reset
    dsimp only
    rw [primary, secondary]
    exact settle?_bytes
      { p with primary := p.primary.coldReset, secondary := p.secondary.coldReset } ()

theorem restore?_bytes (bytes : List UInt8) :
    p.bytes.restore? bytes = some (p.restore bytes).bytes := by
  unfold restore? Pair.restore
  rw [ByteSaved.ofBytes_eq_map]
  cases Saved.ofBytes bytes with
  | error e => rfl
  | ok saved =>
    let loaded := ((p.withSaved .secondary saved.secondary).withSaved .primary saved.primary)
      |>.setCounting (saved.counting.getD p.counters.enabled)
    let q : Pair Wire := { loaded with
      secondary := loaded.secondary.refresh.forwarded
      primary := loaded.primary.refresh }
    have secondary : p.bytes.secondary.load? p.bytes.config.secondary.elcrMask.toByte
        saved.secondary.bytes = some loaded.secondary.refresh.bytes := ByteChip.load?_bytes ..
    have primary : p.bytes.primary.load? p.bytes.config.primary.elcrMask.toByte
        saved.primary.bytes = some loaded.primary.refresh.bytes := ByteChip.load?_bytes ..
    simp only [Except.map, Saved.bytes, secondary, primary, Option.bind_eq_bind, Option.bind_some]
    exact congrArg (Option.map (ByteOutcome.map Except.ok)) (settle?_bytes q ())

/-! ## Runs -/

theorem perform?_bytes (op : Pair.Operation Wire) :
    p.bytes.perform? op = some (p.perform op).bytes := by
  cases op with
  | setLine n level => exact congrArg (Option.map _) (setLine?_bytes p n level)
  | readPort port => exact congrArg (Option.map _) (readPort?_bytes p port)
  | writePort port value => exact congrArg (Option.map _) (writePort?_bytes p port value)
  | acknowledge => exact congrArg (Option.map _) (acknowledge?_bytes p)
  | acknowledgeIfAsserted => exact congrArg (Option.map _) (acknowledgeIfAsserted?_bytes p)
  | readIntack => exact congrArg (Option.map _) (readIntack?_bytes p)
  | reset kind => exact congrArg (Option.map _) (reset?_bytes p kind)
  | restore bytes => exact congrArg (Option.map _) (restore?_bytes p bytes)
  | connect wire => rfl
  | setCounting on => rfl
  | clearCounts => rfl

/-- No run faults. -/
theorem performAll?_bytes (history : List (Pair.Operation Wire)) :
    p.bytes.performAll? history = some (p.performAll history).bytes := by
  induction history generalizing p with
  | nil => rfl
  | cons op history ih =>
    have rest : (p.perform op).bytes.pair.performAll? history = _ := ih (p.perform op).pair
    unfold performAll? Pair.performAll
    rw [perform?_bytes, Option.bind_eq_bind, Option.bind_some, rest]
    rfl

theorem new_bytes (config : Config) : (Pair.new config : Pair Wire).bytes = new config := rfl

end BytePair

end PicCascade
