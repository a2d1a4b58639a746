import PicCascade.Proofs.Chip.Service

/-!
# Which line a chip selects

The rules of arbitration, stated for one line at a time and without a search. The rank of a line is
the number of steps from the line with the highest priority up to it. A line may be served if it is
requested and not masked and ranks below every line whose service blocks it. The chip selects such a
line if no other requested and unmasked line has a lower rank.

Results:
* `pending?_eq_some_iff_selects`, `pending?_eq_none_iff_selects`: a chip offers the line that it
  selects, and none only if it selects none.
* `isSome_pending?_iff`: it offers some line iff there is a line that may be served.
* `isSome_pending?_retired_iff`: what is left to offer once a line has been retired.
* `Chip.acknowledged_acknowledge`: what an acknowledge cycle does to the registers.
-/

namespace PicCascade

namespace Registers

variable {position : Position} {r : Registers} {i : Line}

/-! ## The rules -/

/-- The number of steps from the line with the highest priority up to a line, where line 0 follows
line 7. -/
def rank (r : Registers) (i : Line) : Nat := (i.val + 8 - r.top.val) % 8

/-- The line is in service and keeps other lines waiting. With special mask mode a masked line does
not, and with special fully nested mode the cascade line of the primary does not. -/
structure Blocks (position : Position) (r : Registers) (i : Line) : Prop where
  served : i ∈ r.isr
  unmasked : ¬ (r.specialMask = true ∧ i ∈ r.imr)
  notNested : ¬ (position = .primary ∧ r.specialFullyNested = true ∧ i = Line.cascade)

/-- The line is requested and not masked, and no service blocks it. -/
structure Eligible (position : Position) (r : Registers) (i : Line) : Prop where
  requested : i ∈ r.irr
  unmasked : i ∉ r.imr
  unblocked : ∀ j, r.Blocks position j → r.rank i < r.rank j

/-- The line may be served, and no requested and unmasked line has a lower rank. -/
structure Selects (position : Position) (r : Registers) (i : Line) : Prop
    extends Eligible position r i where
  least : ∀ j, j ∈ r.irr → j ∉ r.imr → r.rank i ≤ r.rank j

/-! ## A chip follows the rules -/

theorem val_rank (r : Registers) (i : Line) : (Line.rank r.top i).val = r.rank i := by
  have steps : (Line.rank r.top i).val = (8 - r.top.val + i.val) % 8 := Fin.val_sub i r.top
  have bound := r.top.isLt
  rw [steps, rank]
  omega

theorem mem_candidates : i ∈ r.candidates ↔ i ∈ r.irr ∧ i ∉ r.imr := LineSet.mem_sdiff

theorem mem_blocking_iff_blocks : i ∈ r.blocking position ↔ r.Blocks position i := by
  rw [mem_blocking]
  constructor
  · rintro ⟨served, unmasked, notNested⟩
    exact ⟨served, fun ⟨mode, masked⟩ => unmasked mode masked,
      fun ⟨primary, mode, cascade⟩ => notNested ⟨mode, primary, cascade⟩⟩
  · rintro ⟨served, unmasked, notNested⟩
    exact ⟨served, fun mode masked => unmasked ⟨mode, masked⟩,
      fun ⟨mode, primary, cascade⟩ => notNested ⟨primary, mode, cascade⟩⟩

/-- A chip offers a line iff it selects the line. -/
theorem pending?_eq_some_iff_selects : r.pending? position = some i ↔ r.Selects position i := by
  rw [pending?_eq_some_iff]
  simp only [mem_candidates, mem_blocking_iff_blocks, val_rank]
  constructor
  · rintro ⟨⟨⟨requested, unmasked⟩, least⟩, unblocked⟩
    exact ⟨⟨requested, unmasked, unblocked⟩, fun j hj open' => least j ⟨hj, open'⟩⟩
  · rintro ⟨⟨requested, unmasked, unblocked⟩, least⟩
    exact ⟨⟨⟨requested, unmasked⟩, fun j ⟨hj, open'⟩ => least j hj open'⟩, unblocked⟩

theorem pending?_eq_none_iff_selects :
    r.pending? position = none ↔ ∀ i, ¬ r.Selects position i := by
  simp only [Option.eq_none_iff_forall_ne_some, ne_eq, pending?_eq_some_iff_selects]

theorem isSome_pending?_iff_selects :
    (r.pending? position).isSome = true ↔ ∃ i, r.Selects position i := by
  simp only [Option.isSome_iff_exists, pending?_eq_some_iff_selects]

/-- If a line may be served, the requested and unmasked line of the least rank may be too. -/
theorem isSome_pending?_iff :
    (r.pending? position).isSome = true ↔ ∃ i, r.Eligible position i := by
  rw [isSome_pending?_iff_selects]
  constructor
  · rintro ⟨i, selects⟩
    exact ⟨i, selects.toEligible⟩
  · rintro ⟨k, requested, unmasked, unblocked⟩
    have candidate : k ∈ r.candidates := mem_candidates.mpr ⟨requested, unmasked⟩
    cases found : r.candidates.highest? r.top with
    | none =>
      rw [LineSet.highest?_eq_none_iff.mp found] at candidate
      exact absurd candidate (LineSet.not_mem_empty k)
    | some i =>
      obtain ⟨mem, least⟩ := LineSet.highest?_eq_some_iff.mp found
      simp only [val_rank] at least
      obtain ⟨requested', unmasked'⟩ := mem_candidates.mp mem
      refine ⟨i, ⟨requested', unmasked', fun j blocks => ?_⟩, fun j hj open' => ?_⟩
      · exact Nat.lt_of_le_of_lt (least k candidate) (unblocked j blocks)
      · exact least j (mem_candidates.mpr ⟨hj, open'⟩)

/-! ## What is left after a line has been retired -/

/-- The registers with the request of a line withdrawn and its service ended. -/
def retired (r : Registers) (i : Line) : Registers :=
  { r with irr := r.irr.erase i, isr := r.isr.erase i }

/-- An offered line does not block, so retiring it does not help any other line. -/
theorem eligible_retired_iff {k : Line} (offered : r.pending? position = some i) :
    (r.retired i).Eligible position k ↔ k ≠ i ∧ r.Eligible position k := by
  obtain ⟨⟨-, -, unblocked⟩, -⟩ := pending?_eq_some_iff_selects.mp offered
  have blocks (j : Line) : (r.retired i).Blocks position j ↔ r.Blocks position j := by
    constructor
    · rintro ⟨served, unmasked, notNested⟩
      exact ⟨(LineSet.mem_erase.mp served).2, unmasked, notNested⟩
    · intro blocks
      have other : j ≠ i := by
        rintro rfl
        exact absurd (unblocked j blocks) (Nat.lt_irrefl _)
      exact ⟨LineSet.mem_erase.mpr ⟨other, blocks.served⟩, blocks.unmasked, blocks.notNested⟩
  constructor
  · rintro ⟨requested, unmasked, below⟩
    obtain ⟨other, before⟩ := LineSet.mem_erase.mp requested
    exact ⟨other, before, unmasked, fun j h => below j ((blocks j).mpr h)⟩
  · rintro ⟨other, requested, unmasked, below⟩
    exact ⟨LineSet.mem_erase.mpr ⟨other, requested⟩, unmasked, fun j h => below j ((blocks j).mp h)⟩

/-- Once the offered line has been retired, the chip offers a line iff another one could have been
served in its place. -/
theorem isSome_pending?_retired_iff (offered : r.pending? position = some i) :
    ((r.retired i).pending? position).isSome = true ↔ ∃ k, k ≠ i ∧ r.Eligible position k := by
  rw [isSome_pending?_iff]
  exact exists_congr fun k => eligible_retired_iff offered

/-! ## Acknowledging and driving a line -/

/-- The registers `r'` are those of `r` after line `i` has been acknowledged. -/
structure Acknowledged (i : Line) (r r' : Registers) : Prop where
  /-- Without automatic end of interrupt, the service of the line begins. -/
  isr : ∀ j, j ∈ r'.isr ↔ j ∈ r.isr ∨ (j = i ∧ r.autoEoi = false)
  /-- With automatic end of interrupt and rotation, the line drops to the lowest priority. -/
  top : r'.top.val =
    if r.autoEoi = true ∧ r.rotateOnAutoEoi = true then (i.val + 1) % 8 else r.top.val
  /-- The request of the line is taken, unless the line is level-triggered. -/
  irr : ∀ j, j ∈ r'.irr ↔ j ∈ r.irr ∧ (j = i → i ∈ r.elcr)
  /-- Nothing else changes. -/
  others : r' = { r with isr := r'.isr, top := r'.top, irr := r'.irr }

/-- The registers `r'` are those of `r` after line `i` has been driven, to high iff `high` holds. -/
structure Driven (i : Line) (high : Prop) (r r' : Registers) : Prop where
  lastHigh : ∀ j, j ∈ r'.lastHigh ↔ if j = i then high else j ∈ r.lastHigh
  /-- A level-triggered line requests service while it is high, and an edge-triggered one once it
  has risen. -/
  irr : ∀ j, j ∈ r'.irr ↔
    if j = i then
      if i ∈ r.elcr then high else i ∈ r.irr ∨ (high ∧ i ∉ r.lastHigh)
    else j ∈ r.irr
  /-- Nothing else changes. -/
  others : r' = { r with lastHigh := r'.lastHigh, irr := r'.irr }

end Registers

namespace Chip

variable {position : Position}

theorem acknowledged_acknowledge (c : Chip position) (i : Line) :
    c.regs.Acknowledged i (c.acknowledge i).regs := by
  constructor
  case isr =>
    intro j
    simp only [acknowledge, regs_refresh, regs_modify]
    cases c.regs.autoEoi <;> simp [or_comm]
  case top =>
    have next : (Line.next i).val = (i.val + 1) % 8 := Fin.val_add i 1
    simp only [acknowledge, regs_refresh, regs_modify, Bool.and_eq_true]
    split
    · exact next
    · rfl
  case irr => exact fun j => mem_irr_acknowledge
  case others => rfl

end Chip

end PicCascade
