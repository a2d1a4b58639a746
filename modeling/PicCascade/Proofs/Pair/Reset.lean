import PicCascade.Proofs.Pair.History

/-!
# What a reset leaves

A reset recomputes the outputs of both chips, puts the secondary's on the cascade line and drives
the primary's onto the wire. Nothing of the pair survives this but the wiring, the wire, the
counters and, in a device reset, the trigger modes.

Results:
* `reset_eq`: the pair that a reset leaves and the levels that it drives.
* `cleared_cleared`: two resets in a row are one, a cold one if either is cold.
* `performAll_resets`: any number of resets in a row is one.
* `pair_setLine_cleared`: a line that goes low and a cold reset can be exchanged.
* `cleared_congr`: what a reset keeps decides what it leaves.
-/

namespace PicCascade

namespace Chip

variable {position : Position}

/-- A chip as after power-on, but for its trigger modes. -/
def silent (position : Position) (elcr : LineSet 8) : Chip position := { regs := { elcr } }

@[simp]
theorem pending?_silent (elcr : LineSet 8) : (silent position elcr).pending? = none :=
  Registers.pending?_eq_none_of_irr rfl

/-- Nothing is offered, so once the output has been forwarded, it is as if never recomputed. -/
theorem forwarded_refresh_silent (elcr : LineSet 8) :
    (silent position elcr).refresh.forwarded = silent position elcr := by
  unfold refresh forwarded
  rw [pending?_silent]
  rfl

/-- A low line makes no difference to a chip none of whose lines is requested or high. -/
theorem setLine_silent (elcr : LineSet 8) (i : Line) :
    (silent position elcr).refresh.setLine i false = (silent position elcr).refresh := by
  have low : (∅ : LineSet 8).put i false = ∅ := by
    ext j
    simp
  have regs : ((silent position elcr).refresh.setLine i false).regs =
      (silent position elcr).regs := by
    simp only [setLine, regs_refresh, regs_modify, silent, low]
    simp
  exact congrArg (fun r => ({ regs := r } : Chip position).refresh) regs

end Chip

namespace Pair

variable {Wire : Type}

/-- The trigger modes that a reset keeps. -/
def ResetKind.kept : ResetKind → LineSet 8 → LineSet 8
  | .device, elcr => elcr
  | .cold, _ => ∅

/-- The more thorough of two resets. -/
def ResetKind.strongest : ResetKind → ResetKind → ResetKind
  | .cold, _ => .cold
  | .device, kind => kind

/-- A new pair with the wire, the counters and the kept trigger modes of a pair. -/
def cleared (p : Pair Wire) (kind : ResetKind) : Pair Wire where
  config := p.config
  primary := .silent _ (kind.kept p.primary.regs.elcr)
  secondary := .silent _ (kind.kept p.secondary.regs.elcr)
  wire := p.wire
  counters := p.counters

theorem drive_silent {q : Pair Wire} {elcr : LineSet 8}
    (primary : q.primary = (Chip.silent _ elcr).refresh) :
    q.drive = { q with primary := .silent _ elcr, level := false } := by
  rw [drive]
  simp [primary, Chip.forwarded_refresh_silent]

/-- Once the outputs of two chips without requests have been recomputed, settling lowers the wire if
it was high. -/
theorem settle_silent {q : Pair Wire} {elcr elcr' : LineSet 8}
    (primary : q.primary = (Chip.silent _ elcr).refresh)
    (secondary : q.secondary = (Chip.silent _ elcr').refresh) :
    q.settle () =
      ⟨(), { q with primary := .silent _ elcr, secondary := .silent _ elcr', level := false },
        if q.level then q.wire.toList.map (·, false) else []⟩ := by
  have relayed : q.relay = { q with secondary := .silent _ elcr' } := by
    rw [relay, secondary, if_pos (Chip.unforwarded_refresh _), Chip.output_refresh,
      Chip.pending?_silent, primary, Option.isSome_none, Chip.setLine_silent,
      Chip.forwarded_refresh_silent, ← primary]
  have drive : q.relay.drive =
      { q with primary := .silent _ elcr, secondary := .silent _ elcr', level := false } := by
    rw [relayed]
    exact drive_silent primary
  have toDrive : q.relay.toDrive = if q.level then q.wire.toList.map (·, false) else [] := by
    rw [relayed, toDrive]
    cases q.level <;> simp [primary]
  rw [settle, drive, toDrive]

/-- A reset clears the pair, and lowers the wire if it was high. -/
theorem reset_eq (p : Pair Wire) (kind : ResetKind) :
    p.reset kind = ⟨(), p.cleared kind, if p.level then p.wire.toList.map (·, false) else []⟩ := by
  cases kind with
  | device => exact settle_silent rfl rfl
  | cold => exact settle_silent rfl rfl

/-! ## Several resets in a row -/

/-- The more thorough of two resets leaves nothing for the other to clear. -/
theorem cleared_cleared (p : Pair Wire) (kind kind' : ResetKind) :
    (p.cleared kind).cleared kind' = p.cleared (kind.strongest kind') := by
  cases kind <;> cases kind' <;> rfl

theorem perform_reset (p : Pair Wire) (kind : ResetKind) :
    p.perform (.reset kind) =
      ⟨.nothing, p.cleared kind, if p.level then p.wire.toList.map (·, false) else []⟩ := by
  rw [perform, reset_eq]
  rfl

/-- Further resets of a cleared pair clear it further and drive nothing. -/
theorem performAll_cleared (p : Pair Wire) (kind : ResetKind) (kinds : List ResetKind) :
    let o := (p.cleared kind).performAll (kinds.map .reset)
    o.pair = p.cleared (kinds.foldl ResetKind.strongest kind) ∧ o.driven = [] := by
  induction kinds generalizing kind with
  | nil => exact ⟨rfl, rfl⟩
  | cons next kinds ih =>
    obtain ⟨pair, driven⟩ := ih (kind.strongest next)
    rw [← cleared_cleared] at pair driven
    rw [List.map_cons, performAll, perform_reset]
    exact ⟨pair, driven⟩

/-- Any number of resets in a row has the effect of the most thorough one. -/
theorem performAll_resets (p : Pair Wire) (first : ResetKind) (others : List ResetKind) :
    let o := p.performAll ((first :: others).map .reset)
    let once := p.reset (others.foldl ResetKind.strongest first)
    o.pair = once.pair ∧ o.driven = once.driven := by
  obtain ⟨pair, driven⟩ := p.performAll_cleared first others
  rw [List.map_cons, performAll, perform_reset, reset_eq]
  exact ⟨pair, by rw [driven, List.append_nil]⟩

/-! ## Lines that go low -/

/-- A low line makes no difference to two chips none of whose lines is requested or high. -/
theorem pair_setLine_silent {q : Pair Wire} {elcr elcr' : LineSet 8}
    (primary : q.primary = .silent _ elcr) (secondary : q.secondary = .silent _ elcr')
    (level : q.level = false) (position : Position) (i : Line) :
    ((q.modifyChip position (·.setLine i false)).settle ()).pair = q := by
  -- Driving a line does not read the output, so it may be taken as recomputed.
  have same (position : Position) (elcr : LineSet 8) (i : Line) :
      (Chip.silent position elcr).setLine i false = (Chip.silent position elcr).refresh :=
    Chip.setLine_silent elcr i
  cases position with
  | primary =>
    show (relay { q with primary := q.primary.setLine i false }).drive = q
    rw [primary, same, relay, if_neg (by simp [secondary, Chip.silent]), drive_silent rfl,
      ← primary, ← level]
  | secondary =>
    show (relay { q with secondary := q.secondary.setLine i false }).drive = q
    rw [secondary, same, relay, if_pos (Chip.unforwarded_refresh _), Chip.output_refresh,
      Chip.pending?_silent, Chip.forwarded_refresh_silent, primary, Option.isSome_none, same,
      drive_silent rfl, ← primary, ← secondary, ← level]

/-- It makes no difference whether a line goes low before or after a cold reset. -/
theorem pair_setLine_cleared (p : Pair Wire) (n : UInt8) :
    ((p.cleared .cold).setLine n false).pair = (p.setLine n false).pair.cleared .cold := by
  by_cases line : n.toNat < 16
  · rw [setLine, dif_pos line, setLine, dif_pos line]
    obtain ⟨position, i⟩ := Line.ofGlobal n
    dsimp only
    rw [pair_setLine_silent rfl rfl rfl, cleared, cleared, config_settle, wire_settle,
      counters_settle]
    cases position with
    | primary => rfl
    | secondary => rfl
  · rw [setLine, dif_neg line, setLine, dif_neg line]

/-! ## What a reset forgets -/

/-- The pairs agree in what a reset keeps. -/
structure SameKept (kind : ResetKind) (p p' : Pair Wire) : Prop where
  config : p.config = p'.config
  wire : p.wire = p'.wire
  counters : p.counters = p'.counters
  primary : kind.kept p.primary.regs.elcr = kind.kept p'.primary.regs.elcr
  secondary : kind.kept p.secondary.regs.elcr = kind.kept p'.secondary.regs.elcr

variable {kind : ResetKind} {p p' : Pair Wire}

theorem cleared_congr (same : SameKept kind p p') : p.cleared kind = p'.cleared kind := by
  unfold cleared
  rw [same.config, same.wire, same.counters, same.primary, same.secondary]

/-- Nothing else that was in a pair before a reset makes any difference after it. -/
theorem pair_reset_congr (same : SameKept kind p p') :
    (p.reset kind).pair = (p'.reset kind).pair := by
  rw [reset_eq, reset_eq]
  exact cleared_congr same

end Pair

end PicCascade
