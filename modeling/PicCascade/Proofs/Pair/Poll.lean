import PicCascade.Proofs.Chip.Selection
import PicCascade.Proofs.Layout
import PicCascade.Proofs.Pair.History

/-!
# Polling instead of acknowledging

A guest can take a request without an acknowledge cycle: it asks for a poll and then reads the
command port. For an edge-triggered line of the primary this amounts to a cycle and a command that
ends the service of the line. The cycle takes the request and begins a service that the command ends;
the poll takes the request and ends a service that has not begun. Both leave the services as they
were, because an offered line is never in service.

Results:
* `Registers.not_mem_isr_of_pending?`: an offered line is not in service.
* `Chip.regs_retire`, `Chip.regs_endService_acknowledge`: both ways only take the request.
* `performAll_poll`, `performAll_acknowledge_endLine`: where each of the two ways leads.
* `poll_eq_acknowledge_endLine`: they lead from every reachable pair to the same pair.
-/

namespace PicCascade

/-! ## Lines and services -/

/-- An offered line is not in service, unless it is the cascade line. Otherwise its own service would
keep it waiting. -/
theorem Registers.not_mem_isr_of_pending? {position : Position} {r : Registers} {i : Line}
    (offered : r.pending? position = some i) (notCascade : i ≠ Line.cascade) : i ∉ r.isr := by
  intro served
  obtain ⟨⟨-, unmasked, unblocked⟩, -⟩ := pending?_eq_some_iff_selects.mp offered
  have blocks : r.Blocks position i :=
    ⟨served, fun ⟨_, masked⟩ => unmasked masked, fun ⟨_, _, cascade⟩ => notCascade cascade⟩
  exact Nat.lt_irrefl _ (unblocked i blocks)

namespace LineSet

variable {n : Nat} {i : Fin n} {s : LineSet n}

theorem erase_of_not_mem (h : i ∉ s) : s.erase i = s := by
  ext j
  rw [mem_erase]
  exact and_iff_right_of_imp fun mem eq => h (eq ▸ mem)

theorem erase_insert (h : i ∉ s) : (s.insert i).erase i = s := by
  ext j
  rw [mem_erase, mem_insert]
  constructor
  · rintro ⟨other, rfl | mem⟩
    · exact absurd rfl other
    · exact mem
  · exact fun mem => ⟨fun eq => h (eq ▸ mem), .inr mem⟩

end LineSet

namespace Registers

/-- The registers once a poll has been asked for. -/
def polling (r : Registers) : Registers := { r with poll := true }

/-- The registers without the request of a line. -/
def taken (r : Registers) (i : Line) : Registers := { r with irr := r.irr.erase i }

end Registers

namespace Chip

variable {position : Position} {c : Chip position} {i : Line}

/-- A poll takes the request of a line that is not in service. -/
theorem regs_retire (idle : i ∉ c.regs.isr) : (c.retire i).regs = c.regs.taken i := by
  rw [retire, regs_modify, LineSet.erase_of_not_mem idle]
  rfl

/-- An acknowledge cycle and the end of the service take the request of an edge-triggered line that
is not in service. With automatic end of interrupt the service has not even begun. -/
theorem regs_endService_acknowledge (idle : i ∉ c.regs.isr) (edge : i ∉ c.regs.elcr)
    (noRotation : ¬ (c.regs.autoEoi = true ∧ c.regs.rotateOnAutoEoi = true)) :
    ((c.acknowledge i).endService i false).regs = c.regs.taken i := by
  have top : (c.regs.autoEoi && c.regs.rotateOnAutoEoi) = false := by simpa using noRotation
  -- the end of the service undoes its beginning, or has nothing to undo
  have isr : (if c.regs.autoEoi then c.regs.isr else c.regs.isr.insert i).erase i = c.regs.isr := by
    split
    · exact LineSet.erase_of_not_mem idle
    · exact LineSet.erase_insert idle
  simp only [endService, acknowledge, regs_refresh, regs_modify, if_neg edge, top, isr]
  rfl

end Chip

/-! ## Command bytes -/

theorem Command.decode_poll : decode 0x0C = .ocw3 true none none := rfl

theorem Command.decode_endLine_or (i : Line) :
    decode (0x60 ||| Line.toByte i) = .endLine i false := by
  revert i
  decide

namespace Pair

variable {Wire : Type} {p : Pair Wire} {i : Line} {port : UInt16}

/-! ## The two ways -/

theorem writePort_endLine (settled : p.Settled)
    (decoded : p.config.decode? port = some (.command .primary)) (i : Line) :
    (p.writePort port (0x60 ||| Line.toByte i)).answer = none ∧
      (p.writePort port (0x60 ||| Line.toByte i)).pair =
        p.withPrimary (p.primary.endService i false).regs := by
  have command : p.primary.writeCommand (0x60 ||| Line.toByte i) = p.primary.endService i false := by
    rw [Chip.writeCommand, Command.decode_endLine_or]
    rfl
  rw [writePort_of_command decoded]
  constructor
  · show Command.fault? .primary _ = none
    rw [Command.fault?, Command.decode_endLine_or]
  · rw [modifyChip, command]
    exact pair_settle_primary _ settled (Chip.recomputed_endService ..)

/-- Asking for a poll changes nothing else. -/
theorem writePort_poll (settled : p.Settled)
    (decoded : p.config.decode? port = some (.command .primary)) :
    p.writePort port 0x0C =
      ⟨none, { p with primary := p.primary.modify Registers.polling }, []⟩ := by
  have command : p.primary.writeCommand 0x0C = p.primary.modify Registers.polling := by
    simp only [Chip.writeCommand, Command.decode_poll, Chip.execute, Bool.or_true]
    rfl
  have idle : Settled { p with primary := p.primary.modify Registers.polling } :=
    ⟨settled.primary, settled.secondary⟩
  rw [writePort_of_command decoded, modifyChip, command, settle_of_settled idle]
  rfl

theorem readPort_of_own (decoded : p.config.decode? port = some (.command .primary))
    (asked : p.primary.regs.poll = true) (offered : p.primary.pending? = some i)
    (notCascade : i ≠ Line.cascade) :
    p.readPort port =
      settle { p with primary := (p.primary.retire i).refresh.modify Registers.polled }
        (Line.toByte i) := by
  have asked' : (p.chip .primary).regs.poll = true := asked
  simp only [readPort, decoded, readRegister, readCommand, if_pos asked', poll, pollPrimary, offered,
    if_neg notCascade]
  rfl

/-- A poll that has been asked for takes the offered line at once. -/
theorem readPort_polling (settled : p.Settled)
    (decoded : p.config.decode? port = some (.command .primary))
    (offered : p.primary.pending? = some i) (notCascade : i ≠ Line.cascade)
    (unasked : p.primary.regs.poll = false) :
    let q : Pair Wire := { p with primary := p.primary.modify Registers.polling }
    (q.readPort port).answer = Line.toByte i ∧
      (q.readPort port).pair = p.withPrimary (p.primary.retire i).regs := by
  intro q
  have regs : ((q.primary.retire i).refresh.modify Registers.polled).regs =
      (p.primary.retire i).regs := by
    show { (p.primary.retire i).regs with poll := false } = (p.primary.retire i).regs
    rw [← unasked]
    rfl
  have offered' : q.primary.pending? = some i := offered
  rw [readPort_of_own (p := q) decoded rfl offered' notCascade, ← regs]
  exact ⟨rfl, pair_settle_primary _ settled ((Chip.recomputed_refresh _).modify fun _ => rfl)⟩

/-- Asking for a poll and reading it takes the request. -/
theorem performAll_poll (settled : p.Settled)
    (decoded : p.config.decode? port = some (.command .primary))
    (offered : p.primary.pending? = some i) (notCascade : i ≠ Line.cascade)
    (unasked : p.primary.regs.poll = false) :
    let o := p.performAll [.writePort port 0x0C, .readPort port]
    o.answer = [.written none, .byte (Line.toByte i)] ∧
      o.pair = p.withPrimary (p.primary.regs.taken i) := by
  have idle : i ∉ p.primary.regs.isr := Registers.not_mem_isr_of_pending? offered notCascade
  obtain ⟨line, pair⟩ := readPort_polling settled decoded offered notCascade unasked
  constructor
  · show [Answer.written (p.writePort port 0x0C).answer,
      .byte ((p.writePort port 0x0C).pair.readPort port).answer] = _
    rw [writePort_poll settled decoded, line]
  · show ((p.writePort port 0x0C).pair.readPort port).pair = _
    rw [writePort_poll settled decoded, pair, Chip.regs_retire idle]

/-- So does acknowledging the line and ending its service. -/
theorem performAll_acknowledge_endLine (settled : p.Settled)
    (decoded : p.config.decode? port = some (.command .primary))
    (offered : p.primary.pending? = some i) (notCascade : i ≠ Line.cascade)
    (edge : i ∉ p.primary.regs.elcr)
    (noRotation : ¬ (p.primary.regs.autoEoi = true ∧ p.primary.regs.rotateOnAutoEoi = true)) :
    let o := p.performAll [.acknowledge, .writePort port (0x60 ||| Line.toByte i)]
    o.answer = [.byte (p.primary.regs.base + Line.toByte i), .written none] ∧
      o.pair = p.withPrimary (p.primary.regs.taken i) := by
  have idle : i ∉ p.primary.regs.isr := Registers.not_mem_isr_of_pending? offered notCascade
  let q : Pair Wire := p.withPrimary (p.primary.acknowledge i).regs
  obtain ⟨vector, cycled⟩ : p.acknowledge.answer = p.primary.vector i ∧ p.acknowledge.pair = q := by
    rw [acknowledge_of_own offered notCascade]
    exact ⟨rfl, pair_settle_primary _ settled (Chip.recomputed_acknowledge ..)⟩
  have settled' : q.Settled := ⟨rfl, settled.secondary⟩
  obtain ⟨unfaulted, ended⟩ := writePort_endLine settled' decoded i
  constructor
  · show [Answer.byte p.acknowledge.answer,
      .written (p.acknowledge.pair.writePort port _).answer] = _
    rw [vector, cycled, unfaulted]
    rfl
  · show (p.acknowledge.pair.writePort port _).pair = _
    rw [cycled, ended, ← Chip.regs_endService_acknowledge idle edge noRotation]
    rfl

/-- In every reachable pair whose primary offers an edge-triggered line of its own and has not been
asked for a poll, polling the primary and acknowledging the line with a command that ends its service
lead to the same pair, unless the cycle itself rotates the priorities. The poll answers with the
line, the cycle with its vector. All that has changed is that the request is gone and that the wire
is at the level that the primary asks for without it. -/
theorem poll_eq_acknowledge_endLine {config : Config} (reachable : Reachable config p)
    (offered : p.primary.pending? = some i) (notCascade : i ≠ Line.cascade)
    (edge : i ∉ p.primary.regs.elcr) (unasked : p.primary.regs.poll = false)
    (noRotation : ¬ (p.primary.regs.autoEoi = true ∧ p.primary.regs.rotateOnAutoEoi = true)) :
    let port := config.primary.base
    let polled := p.performAll [.writePort port 0x0C, .readPort port]
    let served := p.performAll [.acknowledge, .writePort port (0x60 ||| Line.toByte i)]
    polled.answer = [.written none, .byte (Line.toByte i)] ∧
      served.answer = [.byte (p.primary.regs.base + Line.toByte i), .written none] ∧
      polled.pair = served.pair ∧
      polled.pair = p.withPrimary (p.primary.regs.taken i) := by
  intro port polled served
  have settled : p.Settled := reachable.sound.settled
  have decoded : p.config.decode? port = some (.command .primary) := by
    rw [reachable.sound.config_eq]
    exact config.decode?_base
  obtain ⟨answer, pair⟩ := performAll_poll settled decoded offered notCascade unasked
  obtain ⟨answer', pair'⟩ :=
    performAll_acknowledge_endLine settled decoded offered notCascade edge noRotation
  exact ⟨answer, answer', pair.trans pair'.symm, pair⟩

/-- Line 5 has the highest priority and line 6 is in service, but masked in special mask mode. Line
12 of the secondary and line 1 request service. -/
def rotatedService : Pair Unit :=
  ((new {}).performAll [.writePort 0x20 0xC4, .setLine 6 true, .acknowledge, .writePort 0x21 0x40,
    .writePort 0x20 0x68, .setLine 12 true, .setLine 1 true]).pair

/-- Either way line 1 is taken, line 6 stays in service, and the cascade line is next. -/
theorem poll_eq_acknowledge_endLine_rotatedService :
    rotatedService.primary.pending? = some 1 ∧ (1 : Line) ≠ Line.cascade ∧
      1 ∉ rotatedService.primary.regs.elcr ∧ rotatedService.primary.regs.poll = false ∧
      rotatedService.primary.regs.autoEoi = false ∧
      (rotatedService.performAll [.writePort 0x20 0x0C, .readPort 0x20]).answer =
        [.written none, .byte 1] ∧
      (rotatedService.performAll [.writePort 0x20 0x0C, .readPort 0x20]).pair =
        (rotatedService.performAll [.acknowledge, .writePort 0x20 0x61]).pair ∧
      6 ∈ rotatedService.primary.regs.isr ∧
      (rotatedService.primary.regs.taken 1).pending? .primary = some Line.cascade := by
  have reachable : Reachable {} rotatedService := ⟨_, rfl⟩
  have offered : rotatedService.primary.pending? = some 1 := by decide +kernel
  have edge : 1 ∉ rotatedService.primary.regs.elcr := by decide +kernel
  have unasked : rotatedService.primary.regs.poll = false := by decide +kernel
  have manual : rotatedService.primary.regs.autoEoi = false := by decide +kernel
  have noRotation (mode : rotatedService.primary.regs.autoEoi = true ∧
      rotatedService.primary.regs.rotateOnAutoEoi = true) : False :=
    Bool.false_ne_true (manual.symm.trans mode.1)
  obtain ⟨answer, -, same, -⟩ :=
    poll_eq_acknowledge_endLine reachable offered (by decide) edge unasked noRotation
  exact ⟨offered, by decide, edge, unasked, manual, answer, same, by decide +kernel,
    by decide +kernel⟩

end Pair

end PicCascade
