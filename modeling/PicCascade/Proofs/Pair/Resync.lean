import PicCascade.Proofs.Chip.Selection
import PicCascade.Proofs.Pair.Notification
import PicCascade.Proofs.Pair.Requests

/-!
# When the wire catches up

The wire can be left behind by what the primary offers: by a mode switch that does not recompute the
output, or by a poll that finds the cascade line. The operations that recompute the output of either
chip bring it back to the right level, whatever it was before. If it was the secondary's output, that
is put on the cascade line, which recomputes the primary's.

A poll of the whole pair recomputes nothing if it finds the cascade line and then an empty secondary.
The cascade line has been retired by then, so the wire stays high although the primary may have
nothing left to offer.

Results:
* `level_of_resynchronises`: the operations after which the wire has the right level.
* `level_readIntack_iff`: when a poll of the whole pair leaves it with the right level.
* `level_readIntack_ne_output`: a poll that leaves it high with nothing to offer.
-/

namespace PicCascade

/-! ## Command bytes that recompute the output -/

namespace Command

variable {value : UInt8}

/-- The byte is an OCW2: a command about priorities or the end of services. -/
structure IsOcw2 (value : UInt8) : Prop where
  notIcw1 : bit value 4 = false
  notOcw3 : bit value 3 = false

theorem decode_endHighest (ocw2 : IsOcw2 value) (bit6 : bit value 6 = false)
    (bit5 : bit value 5 = true) : decode value = .endHighest (bit value 7) := by
  simp [decode, ocw2.notIcw1, ocw2.notOcw3, bit6, bit5]

theorem decode_endLine (ocw2 : IsOcw2 value) (bit6 : bit value 6 = true)
    (bit5 : bit value 5 = true) :
    decode value = .endLine (Line.ofByte value) (bit value 7) := by
  simp [decode, ocw2.notIcw1, ocw2.notOcw3, bit6, bit5]

theorem decode_setLowest (ocw2 : IsOcw2 value) (bit7 : bit value 7 = true)
    (bit6 : bit value 6 = true) (bit5 : bit value 5 = false) :
    decode value = .setLowest (Line.ofByte value) := by
  simp [decode, ocw2.notIcw1, ocw2.notOcw3, bit7, bit6, bit5]

end Command

namespace Pair

variable {Wire : Type} {p : Pair Wire}

/-! ## The operations that bring the wire back -/

/-- The operation leaves the wire at the right level, whatever its level was before. -/
inductive Resynchronises (p : Pair Wire) : Operation Wire → Prop
  | line {n : UInt8} {level : Bool} (line : n.toNat < 16) : Resynchronises p (.setLine n level)
  | reset {kind : ResetKind} : Resynchronises p (.reset kind)
  | restore {bytes : List UInt8} (accepted : (p.restore bytes).answer = .ok ()) :
      Resynchronises p (.restore bytes)
  | acknowledge (asks : p.output = true) : Resynchronises p .acknowledge
  /-- A poll of one chip takes a request other than that of the cascade line. -/
  | pollChip {port : UInt16} {position : Position} {i : Line}
      (taken : p.taken? (.readPort port) = some (position, i))
      (own : (position, i) ≠ (.primary, Line.cascade)) : Resynchronises p (.readPort port)
  /-- A poll of the whole pair takes a request. -/
  | pollPair {position : Position} {i : Line} (taken : p.taken? .readIntack = some (position, i)) :
      Resynchronises p .readIntack
  /-- ICW1, whether it is a fault or not. -/
  | initialise {port : UInt16} {value : UInt8} {position : Position}
      (decoded : p.config.decode? port = some (.command position))
      (icw1 : Command.bit value 4 = true) : Resynchronises p (.writePort port value)
  /-- OCW1 sets the masks. -/
  | mask {port : UInt16} {value : UInt8} {position : Position}
      (decoded : p.config.decode? port = some (.data position))
      (ready : (p.chip position).regs.stage = .ready) : Resynchronises p (.writePort port value)
  /-- OCW2 ends the service of a given line, with bit 7 also giving it the lowest priority. -/
  | endLine {port : UInt16} {value : UInt8} {position : Position}
      (decoded : p.config.decode? port = some (.command position)) (ocw2 : Command.IsOcw2 value)
      (bit6 : Command.bit value 6 = true) (bit5 : Command.bit value 5 = true) :
      Resynchronises p (.writePort port value)
  /-- OCW2 gives a line the lowest priority. -/
  | setLowest {port : UInt16} {value : UInt8} {position : Position}
      (decoded : p.config.decode? port = some (.command position)) (ocw2 : Command.IsOcw2 value)
      (bit7 : Command.bit value 7 = true) (bit6 : Command.bit value 6 = true)
      (bit5 : Command.bit value 5 = false) : Resynchronises p (.writePort port value)
  /-- OCW2 ends the service of the line with the highest priority, with bit 7 also giving it the
  lowest. There is a line in service. -/
  | endHighest {port : UInt16} {value : UInt8} {position : Position}
      (decoded : p.config.decode? port = some (.command position)) (ocw2 : Command.IsOcw2 value)
      (bit6 : Command.bit value 6 = false) (bit5 : Command.bit value 5 = true)
      (inService : (p.chip position).regs.isr ≠ ∅) : Resynchronises p (.writePort port value)

theorem recomputes_readIntack {position : Position} {i : Line}
    (taken : p.taken? .readIntack = some (position, i)) : p.recomputes .readIntack = true := by
  cases position with
  | primary =>
    obtain ⟨offered, notCascade⟩ := offered?_eq_primary.mp taken
    simp [recomputes, offered, notCascade]
  | secondary =>
    obtain ⟨offered, behind⟩ := offered?_eq_secondary.mp taken
    simp [recomputes, offered, behind]

theorem recomputes_readPort {port : UInt16} {position : Position} {i : Line}
    (taken : p.taken? (.readPort port) = some (position, i))
    (own : (position, i) ≠ (.primary, Line.cascade)) : p.recomputes (.readPort port) = true := by
  obtain ⟨decoded, asked, offered⟩ := taken?_readPort_eq_some taken
  cases position with
  | primary =>
    have notCascade : i ≠ Line.cascade := fun eq => own (eq ▸ rfl)
    have asked : p.primary.regs.poll = true := asked
    have offered : p.primary.pending? = some i := offered
    simp [recomputes, decoded, asked, offered, notCascade]
  | secondary =>
    have asked : p.secondary.regs.poll = true := asked
    have offered : p.secondary.pending? = some i := offered
    simp [recomputes, decoded, asked, offered]

theorem recomputes_writePort_of_command {port : UInt16} {value : UInt8} {position : Position}
    (decoded : p.config.decode? port = some (.command position)) :
    p.recomputes (.writePort port value) =
      (p.chip position).recomputes (Command.decode value) := by
  simp only [recomputes, decoded]

/-- Each of these operations recomputes the output of one of the chips. -/
theorem Resynchronises.recomputes {op : Operation Wire} (h : p.Resynchronises op) :
    p.recomputes op = true := by
  cases h with
  | line line => exact decide_eq_true line
  | reset => rfl
  | @restore bytes accepted =>
    cases decoded : Saved.ofBytes bytes with
    | error e =>
      rw [Pair.restore, decoded] at accepted
      cases accepted
    | ok saved => simp [Pair.recomputes, decoded, Except.isOk, Except.toBool]
  | acknowledge asks => exact asks
  | pollChip taken own => exact recomputes_readPort taken own
  | pollPair taken => exact recomputes_readIntack taken
  | initialise decoded icw1 =>
    rw [recomputes_writePort_of_command decoded, Command.decode_icw1 icw1]
    rfl
  | mask decoded ready => simp [Pair.recomputes, decoded, ready]
  | endLine decoded ocw2 bit6 bit5 =>
    rw [recomputes_writePort_of_command decoded, Command.decode_endLine ocw2 bit6 bit5]
    rfl
  | setLowest decoded ocw2 bit7 bit6 bit5 =>
    rw [recomputes_writePort_of_command decoded, Command.decode_setLowest ocw2 bit7 bit6 bit5]
    rfl
  | endHighest decoded ocw2 bit6 bit5 inService =>
    rw [recomputes_writePort_of_command decoded, Command.decode_endHighest ocw2 bit6 bit5]
    exact decide_eq_true inService

/-- From every reachable pair, whether the wire has the right level or not, each of these operations
leaves it at the level that arbitration asks for. -/
theorem level_of_resynchronises {config : Config} {op : Operation Wire}
    (reachable : Reachable config p) (h : p.Resynchronises op) :
    (p.perform op).pair.level = (p.perform op).pair.output := by
  rw [level_perform reachable.sound.settled op, if_pos h.recomputes]

/-- Line 1 is in service and masked, special mask mode has been switched on, and line 4 requests
service. The primary offers line 4 now, but its output has not been recomputed since. -/
def unannounced : List (Operation Unit) :=
  [.setLine 1 true, .acknowledge, .writePort 0x21 0x02, .setLine 4 true, .writePort 0x20 0x68]

/-- Setting the masks of the secondary, which has nothing to offer, brings the wire back. -/
theorem level_of_resynchronises_unannounced :
    let p := ((new {}).performAll unannounced).pair
    p.level ≠ p.output ∧ p.Resynchronises (.writePort 0xA1 0xFF) ∧
      (p.perform (.writePort 0xA1 0xFF)).pair.level =
        (p.perform (.writePort 0xA1 0xFF)).pair.output := by
  intro p
  have decoded : p.config.decode? 0xA1 = some (.data .secondary) := by decide +kernel
  have mask : p.Resynchronises (.writePort 0xA1 0xFF) := .mask decoded (by decide +kernel)
  exact ⟨by decide +kernel, mask, level_of_resynchronises ⟨unannounced, rfl⟩ mask⟩

/-! ## Polls of the whole pair -/

/-- If nothing is offered, a poll of the pair only selects the lines in service for the next status
read. -/
theorem readIntack_of_idle (settled : p.Settled) (offered : p.primary.pending? = none) :
    p.readIntack.pair = { p with primary := p.primary.modify Registers.showingIsr } := by
  have distinct : Line.spurious ≠ Line.cascade := by decide
  have after : Settled { p with primary := p.primary.modify Registers.showingIsr } :=
    ⟨settled.primary, settled.secondary⟩
  have eq : p.readIntack.pair =
      (settle { p with primary := p.primary.modify Registers.showingIsr } ()).pair := by
    simp only [readIntack, pollPrimary, offered, distinct, if_false]
    rfl
  rw [eq, settle_of_settled after]

/-- If the secondary has nothing left behind the cascade line, the cascade line is retired as well,
and no output is recomputed. -/
theorem readIntack_of_spurious (settled : p.Settled)
    (offered : p.primary.pending? = some Line.cascade) (behind : p.secondary.pending? = none) :
    p.readIntack.pair =
      { p with primary := (p.primary.retire Line.cascade).modify Registers.showingIsr } := by
  have after : Settled
      { p with primary := (p.primary.retire Line.cascade).modify Registers.showingIsr } :=
    ⟨settled.primary, settled.secondary⟩
  have eq : p.readIntack.pair =
      (settle { p with primary := (p.primary.retire Line.cascade).modify Registers.showingIsr }
        ()).pair := by
    simp only [readIntack, pollPrimary, pollSecondary, offered, behind, if_true]
    rfl
  rw [eq, settle_of_settled after]

/-- If the wire has the right level, a poll of the whole pair leaves it with the right level, except
when it finds the cascade line, nothing left behind it, and no other line of the primary that may be
served. -/
theorem level_readIntack_iff {config : Config} (reachable : Reachable config p)
    (level : p.level = p.output) :
    p.readIntack.pair.level = p.readIntack.pair.output ↔
      (p.primary.pending? = some Line.cascade → p.secondary.pending? = none →
        ∃ i, i ≠ Line.cascade ∧ p.primary.regs.Eligible .primary i) := by
  have settled := reachable.sound.settled
  have recomputed (h : p.recomputes .readIntack = true) :
      p.readIntack.pair.level = p.readIntack.pair.output :=
    (level_perform settled .readIntack).trans (if_pos h)
  cases offered : p.primary.pending? with
  | none =>
    refine iff_of_true ?_ fun cascade => absurd cascade (by simp)
    rw [readIntack_of_idle settled offered]
    exact level
  | some i =>
    by_cases cascade : i = Line.cascade
    · subst cascade
      cases behind : p.secondary.pending? with
      | none =>
        have after := readIntack_of_spurious settled offered behind
        have kept : p.readIntack.pair.level = true := by
          rw [after]
          exact level.trans (congrArg Option.isSome offered)
        have output : p.readIntack.pair.output =
            ((p.primary.regs.retired Line.cascade).pending? .primary).isSome := by
          rw [after]
          rfl
        -- The wire stays high, which is right iff the primary still offers a line.
        rw [kept, output, eq_comm, Registers.isSome_pending?_retired_iff offered]
        simp only [true_implies]
      | some j =>
        refine iff_of_true (recomputed ?_) fun _ none => absurd none (by simp)
        simp [recomputes, offered, behind]
    · refine iff_of_true (recomputed ?_) fun eq => absurd (Option.some.inj eq) cascade
      simp [recomputes, offered, cascade]

/-- Line 9 is level-triggered and falls again after its request has reached the primary. -/
def withdrawn : List (Operation Unit) :=
  [.connect (some ()), .writePort 0x4D1 0x02, .setLine 9 true, .setLine 9 false]

/-- With line 4 requested as well, the wire rightly stays high. -/
theorem level_readIntack_withdrawn :
    let p := ((new {}).performAll (withdrawn ++ [.setLine 4 true])).pair
    p.level = p.output ∧ p.primary.pending? = some Line.cascade ∧ p.secondary.pending? = none ∧
      p.readIntack.pair.level = p.readIntack.pair.output := by
  intro p
  have level : p.level = p.output := by decide +kernel
  refine ⟨level, by decide +kernel, by decide +kernel, ?_⟩
  refine (level_readIntack_iff (p := p) ⟨_, rfl⟩ level).mpr fun _ _ => ⟨Line.ofByte 4, by decide, ?_⟩
  refine ⟨by decide +kernel, by decide +kernel, fun j blocks => ?_⟩
  have idle : p.primary.regs.isr = ∅ := by decide +kernel
  exact absurd (idle ▸ blocks.served) (LineSet.not_mem_empty j)

/-- Without it the wire stays high although the primary has nothing to offer any more. -/
theorem level_readIntack_ne_output :
    ∃ p : Pair Unit, Reachable {} p ∧ p.level = p.output ∧
      p.readIntack.pair.level = true ∧ p.readIntack.pair.output = false :=
  ⟨_, ⟨withdrawn, rfl⟩, by decide +kernel⟩

end Pair

end PicCascade
