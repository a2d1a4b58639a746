import PicCascade.Proofs.Pair.Counters
import PicCascade.Proofs.Pair.Notification

/-!
# Exchanging line changes

Two lines can change in either order if one of them is a line of the primary other than the cascade
line. The other may be a line of the secondary, which then changes the cascade line too. Which output
the secondary puts there does not depend on the primary, and what the primary makes of it does not
depend on its other lines. Only the level that the wire is driven to in between may be different.

Two lines of the secondary cannot be exchanged: if one rises before the other falls, the cascade line
stays high, and if it rises afterwards, so does the cascade line.

Results:
* `Chip.setLine_comm`, `Chip.setLine_setLine`: line changes of one chip.
* `Pair.pair_setLine`: the settled pair after a line change.
* `Pair.line_changes_exact`: exchanged and repeated line changes of a pair.
-/

namespace PicCascade

/-! ## Line changes of one chip -/

namespace Chip

variable {position : Position} {c d : Chip position} {i j : Line} {a b : Bool}

/-- The chip with other requests and edge detectors, its output recomputed. A line change makes no
other difference. -/
def withInputs (c : Chip position) (irr lastHigh : LineSet 8) : Chip position :=
  refresh <| c.modify fun r => { r with irr, lastHigh }

/-- A line change looks at the registers and at nothing else. -/
theorem setLine_congr (same : c.regs = d.regs) (i : Line) (a : Bool) :
    c.setLine i a = d.setLine i a := by
  simp only [setLine, refresh, modify, pending?, same]

/-- Changes of two lines can be exchanged. -/
theorem setLine_comm (other : i ≠ j) :
    (c.setLine i a).setLine j b = (c.setLine j b).setLine i a := by
  have elcr (k : Line) (level : Bool) : (c.setLine k level).regs.elcr = c.regs.elcr := rfl
  have irr : ((c.setLine i a).setLine j b).regs.irr = ((c.setLine j b).setLine i a).regs.irr := by
    ext k
    simp only [mem_irr_setLine, mem_lastHigh_setLine, elcr, if_neg other, if_neg other.symm]
    by_cases first : k = i
    · subst first
      simp only [if_neg other, if_true]
    · simp only [if_neg first]
  exact congrArg₂ c.withInputs irr (LineSet.put_comm other)

/-- A repeated change of a line makes no difference. -/
theorem setLine_setLine : (c.setLine i a).setLine i a = c.setLine i a := by
  have elcr : (c.setLine i a).regs.elcr = c.regs.elcr := rfl
  have irr : ((c.setLine i a).setLine i a).regs.irr = (c.setLine i a).regs.irr := by
    ext k
    simp only [mem_irr_setLine, mem_lastHigh_setLine, elcr, if_true]
    by_cases own : k = i
    · cases a with
      | false => simp [own]
      | true => simp [own]
    · simp only [if_neg own]
  exact congrArg₂ c.withInputs irr LineSet.put_put

end Chip

/-! ## What the counters note -/

namespace Counters

variable {c : Counters} {i j : Fin 16} {a b : Bool}

theorem record_comm (other : i ≠ j) :
    (c.record i a).record j b = (c.record j b).record i a := by
  have enabled (k : Fin 16) (level : Bool) : (c.record k level).enabled = c.enabled := rfl
  have counts : ((c.record i a).record j b).counts = ((c.record j b).record i a).counts := by
    have second : j ∈ (c.record i a).high ↔ j ∈ c.high := by
      simp only [record, LineSet.mem_put, if_neg other.symm]
    have first : i ∈ (c.record j b).high ↔ i ∈ c.high := by
      simp only [record, LineSet.mem_put, if_neg other]
    ext k within
    simp only [counts_record within, enabled, first, second]
    exact Nat.add_right_comm ..
  exact congrArg₂ (Counters.mk c.enabled) (LineSet.put_comm other) counts

theorem record_record : (c.record i a).record i a = c.record i a := by
  have counts : ((c.record i a).record i a).counts = (c.record i a).counts := by
    have still : i ∈ (c.record i a).high ↔ a = true := by
      simp only [record, LineSet.mem_put, if_true]
    ext k within
    rw [counts_record within, if_neg fun rise => rise.2.2.1 (still.mpr rise.2.1), Nat.add_zero]
  exact congrArg₂ (Counters.mk c.enabled) LineSet.put_put counts

end Counters

/-! ## Line changes of a pair -/

namespace Pair

variable {Wire : Type} {p : Pair Wire} {position : Position} {i j : Line} {a b : Bool} {n m : UInt8}

/-- The settled pair after a line of one of the chips has been driven. A line of the secondary reaches
the primary by the cascade line. -/
def withLine (p : Pair Wire) (i : Line) (level : Bool) : Position → Pair Wire
  | .primary => p.withPrimary (p.primary.setLine i level).regs
  | .secondary =>
    let secondary := p.secondary.setLine i level
    { p with secondary := secondary.forwarded }.withPrimary
      (p.primary.setLine Line.cascade secondary.output).regs

theorem pair_settle_modifyChip (settled : p.Settled) (position : Position) (i : Line) (level : Bool) :
    ((p.modifyChip position (·.setLine i level)).settle ()).pair = p.withLine i level position := by
  cases position with
  | primary => exact pair_settle_primary () settled (Chip.recomputed_refresh _)
  | secondary =>
    -- The changed output of the secondary reaches the primary first, as a line change of its own.
    have relayed : { p with secondary := (p.secondary.setLine i level).forwarded }.Settled :=
      ⟨settled.primary, rfl⟩
    exact pair_settle_primary () relayed
      (Chip.recomputed_refresh (p.primary.modify _))

theorem withLine_withCounters {c : Counters} :
    (p.withCounters c).withLine i a position = (p.withLine i a position).withCounters c := by
  cases position with
  | primary => rfl
  | secondary => rfl

/-- What driving a line does, once the pair has settled. -/
theorem pair_setLine (settled : p.Settled) (line : n.toNat < 16) (level : Bool) :
    (p.setLine n level).pair =
      (p.withLine (Line.ofGlobal n).2 level (Line.ofGlobal n).1).withCounters
        (p.counters.record ⟨n.toNat, line⟩ level) := by
  have counted : (p.withCounters (p.counters.record ⟨n.toNat, line⟩ level)).Settled :=
    ⟨settled.primary, settled.secondary⟩
  have after := pair_settle_modifyChip counted (Line.ofGlobal n).1 (Line.ofGlobal n).2 level
  rw [setLine, dif_pos line]
  exact after.trans withLine_withCounters

/-- A line of the primary other than the cascade line can be exchanged with any other line. -/
theorem withLine_comm (notCascade : i ≠ Line.cascade) (other : (position, j) ≠ (.primary, i)) :
    (p.withLine i a .primary).withLine j b position =
      (p.withLine j b position).withLine i a .primary := by
  cases position with
  | primary =>
    have distinct : i ≠ j := fun same => other (same ▸ rfl)
    have comm := Chip.setLine_comm (c := p.primary) (a := a) (b := b) distinct
    exact congrArg (fun c => p.withPrimary (Chip.regs c)) comm
  | secondary =>
    have comm := Chip.setLine_comm (c := p.primary) (a := a)
      (b := (p.secondary.setLine j b).output) notCascade
    exact congrArg (fun c =>
      { p with secondary := (p.secondary.setLine j b).forwarded }.withPrimary (Chip.regs c)) comm

theorem withLine_withLine :
    (p.withLine i a position).withLine i a position = p.withLine i a position := by
  cases position with
  | primary => exact congrArg (fun c => p.withPrimary (Chip.regs c)) Chip.setLine_setLine
  | secondary =>
    let output := (p.secondary.setLine i a).output
    let repeated := (p.secondary.setLine i a).forwarded.setLine i a
    have secondary : repeated = p.secondary.setLine i a :=
      (Chip.setLine_congr rfl i a).trans Chip.setLine_setLine
    have primary := congrArg Chip.regs
      (Chip.setLine_setLine (c := p.primary) (i := Line.cascade) (a := output))
    show { p with secondary := repeated.forwarded }.withPrimary
      ((p.primary.setLine Line.cascade output).setLine Line.cascade repeated.output).regs = _
    rw [secondary, primary]
    rfl

/-! ## In reachable pairs -/

/-- There is no line to drive for a number above 15. -/
theorem setLine_of_not_line (outside : ¬ n.toNat < 16) (p : Pair Wire) (level : Bool) :
    p.setLine n level = ⟨(), p, []⟩ :=
  dif_neg outside

theorem settled_setLine (settled : p.Settled) (n : UInt8) (level : Bool) :
    (p.setLine n level).pair.Settled :=
  settled_perform settled (.setLine n level)

theorem pair_setLine_comm (settled : p.Settled) (low : n.toNat < 8) (notCascade : n ≠ 2)
    (other : m ≠ n) (a b : Bool) :
    ((p.setLine n a).pair.setLine m b).pair = ((p.setLine m b).pair.setLine n a).pair := by
  by_cases line : m.toNat < 16
  · have line' : n.toNat < 16 := Nat.lt_trans low (by decide)
    have chip : (Line.ofGlobal n).1 = .primary := if_pos low
    have own : (Line.ofGlobal n).2 ≠ Line.cascade := fun eq =>
      notCascade (Line.eq_two_of_ofGlobal (Prod.ext chip eq))
    have apart : ((Line.ofGlobal m).1, (Line.ofGlobal m).2) ≠ (.primary, (Line.ofGlobal n).2) :=
      fun eq => other ((Line.ofGlobal_inj line line').mp (eq.trans (Prod.ext chip.symm rfl)))
    have distinct : (⟨n.toNat, line'⟩ : Fin 16) ≠ ⟨m.toNat, line⟩ := fun eq =>
      other (UInt8.toNat_inj.mp (Fin.mk.inj eq).symm)
    rw [pair_setLine (settled_setLine settled n a) line, pair_setLine settled line',
      pair_setLine (settled_setLine settled m b) line', pair_setLine settled line, chip,
      withLine_withCounters, withLine_withCounters, withLine_comm own apart]
    exact congrArg (withCounters _) (Counters.record_comm distinct)
  · rw [setLine_of_not_line line, setLine_of_not_line line]

theorem setLine_setLine (settled : p.Settled) (n : UInt8) (a : Bool) :
    (p.setLine n a).pair.setLine n a = ⟨(), (p.setLine n a).pair, []⟩ := by
  by_cases line : n.toNat < 16
  · have pair : ((p.setLine n a).pair.setLine n a).pair = (p.setLine n a).pair := by
      rw [pair_setLine (settled_setLine settled n a) line, pair_setLine settled line,
        withLine_withCounters, withLine_withLine]
      exact congrArg (withCounters _) Counters.record_record
    have driven : ((p.setLine n a).pair.setLine n a).driven = [] := by
      rw [(follows_setLine _ n a).driven, if_pos (congrArg Pair.level pair)]
    exact congrArg₂ (Outcome.mk ()) pair driven
  · exact setLine_of_not_line line _ _

/-- A change of a line of the primary other than the cascade line can be exchanged with one of any
other line, and a repeated change does and drives nothing. -/
theorem line_changes_exact {config : Config} (reachable : Reachable config p) :
    (∀ (n m : UInt8) (a b : Bool), n.toNat < 8 → n ≠ 2 → m ≠ n →
      ((p.setLine n a).pair.setLine m b).pair = ((p.setLine m b).pair.setLine n a).pair) ∧
    ∀ (n : UInt8) (a : Bool),
      (p.setLine n a).pair.setLine n a = ⟨(), (p.setLine n a).pair, []⟩ := by
  have settled := reachable.sound.settled
  exact ⟨fun n m a b low notCascade other => pair_setLine_comm settled low notCascade other a b,
    fun n a => setLine_setLine settled n a⟩

/-- Lines 9 and 10 are level-triggered. Line 9 is high, and a poll has taken the request that it raised
on the cascade line. -/
def polledBehind : List (Operation Unit) :=
  [.writePort 0x4d1 0x06, .setLine 9 true, .writePort 0x20 0x0c, .readPort 0x20]

theorem line_changes_exact_polledBehind :
    let p := ((new {}).performAll polledBehind).pair
    ((p.setLine 1 true).pair.setLine 9 false).pair =
        ((p.setLine 9 false).pair.setLine 1 true).pair ∧
      (p.setLine 9 false).pair.setLine 9 false = ⟨(), (p.setLine 9 false).pair, []⟩ ∧
      p.level = true ∧ (p.setLine 9 false).pair.level = false := by
  have reachable : Reachable {} ((new {}).performAll polledBehind).pair := ⟨polledBehind, rfl⟩
  obtain ⟨exchanged, repeated⟩ := line_changes_exact reachable
  exact ⟨exchanged 1 9 true false (by decide) (by decide) (by decide), repeated 9 false,
    by decide +kernel, by decide +kernel⟩

/-- Lines 9 and 10, in contrast, cannot be exchanged. -/
example :
    let p := ((new {}).performAll polledBehind).pair
    ((p.setLine 10 true).pair.setLine 9 false).pair ≠
      ((p.setLine 9 false).pair.setLine 10 true).pair := by
  decide +kernel

end Pair

end PicCascade
