import PicCascade.Proofs.Chip.Output

/-!
# What a chip offers for service

A chip offers a line iff the line has the least rank of all candidates and its rank is below that
of every line whose service blocks it. Once an offered line is in service, the same rank keeps
every other candidate waiting.

Results:
* `Registers.pending?_eq_some_iff`: which line is offered, in terms of ranks.
* `Chip.mem_irr_acknowledge`: which requests an acknowledge cycle leaves.
* `Chip.pending?_acknowledge`: without automatic end of interrupt, an acknowledged secondary offers
  nothing.
-/

namespace PicCascade

/-! ## The offered line in terms of ranks -/

namespace Registers

variable {position : Position} {r : Registers}

/-- A rank is below the least rank of a set iff it is below all ranks in it. -/
theorem all_highest?_iff {top i : Line} {s : LineSet 8} :
    ((s.highest? top).all fun j => (Line.rank top i).val < (Line.rank top j).val) = true ↔
      ∀ j ∈ s, (Line.rank top i).val < (Line.rank top j).val := by
  cases found : s.highest? top with
  | none =>
    have empty := LineSet.highest?_eq_none_iff.mp found
    simp [empty]
  | some k =>
    obtain ⟨hk, least⟩ := LineSet.highest?_eq_some_iff.mp found
    simp only [Option.all_some, decide_eq_true_eq]
    constructor
    · intro below j hj
      exact Nat.lt_of_lt_of_le below (least j hj)
    · intro below
      exact below k hk

theorem mem_blocking {i : Line} :
    i ∈ r.blocking position ↔
      i ∈ r.isr ∧ (r.specialMask = true → i ∉ r.imr) ∧
        ¬ (r.specialFullyNested = true ∧ position = .primary ∧ i = Line.cascade) := by
  have unmasked : i ∈ (if r.specialMask then r.isr \ r.imr else r.isr) ↔
      i ∈ r.isr ∧ (r.specialMask = true → i ∉ r.imr) := by
    split
    · rename_i mode
      simp [mode]
    · rename_i mode
      simp [mode]
  simp only [blocking, Bool.and_eq_true, decide_eq_true_eq]
  split
  · rename_i nested
    rw [LineSet.mem_erase, unmasked]
    grind
  · rename_i nested
    rw [unmasked]
    grind

theorem pending?_eq_some_iff {i : Line} :
    r.pending? position = some i ↔
      (i ∈ r.candidates ∧ ∀ k ∈ r.candidates, (Line.rank r.top i).val ≤ (Line.rank r.top k).val) ∧
        ∀ j ∈ r.blocking position, (Line.rank r.top i).val < (Line.rank r.top j).val := by
  rw [pending?, Option.filter_eq_some_iff, LineSet.highest?_eq_some_iff, all_highest?_iff]

/-- Without a request nothing is offered. -/
theorem pending?_eq_none_of_irr {r : Registers} (quiet : r.irr = ∅) :
    r.pending? position = none := by
  rw [Option.eq_none_iff_forall_ne_some]
  intro k offered
  obtain ⟨⟨candidate, -⟩, -⟩ := pending?_eq_some_iff.mp offered
  have requested := (LineSet.mem_sdiff.mp candidate).1
  exact absurd (quiet ▸ requested) (LineSet.not_mem_empty k)

/-- While a line of the least rank is in service and blocks, nothing is offered. -/
theorem pending?_eq_none_of_blocking {j : Line} (blocks : j ∈ r.blocking position)
    (least : ∀ k ∈ r.candidates, (Line.rank r.top j).val ≤ (Line.rank r.top k).val) :
    r.pending? position = none := by
  rw [Option.eq_none_iff_forall_ne_some]
  intro k offered
  obtain ⟨⟨candidate, -⟩, below⟩ := pending?_eq_some_iff.mp offered
  exact absurd (below j blocks) (Nat.not_lt.mpr (least k candidate))

end Registers

/-! ## After an acknowledge cycle -/

namespace Chip

/-- An acknowledge cycle takes the request of its line, unless the line is level-triggered. -/
theorem mem_irr_acknowledge {position : Position} {c : Chip position} {i j : Line} :
    i ∈ (c.acknowledge j).regs.irr ↔ i ∈ c.regs.irr ∧ (i = j → j ∈ c.regs.elcr) := by
  simp only [acknowledge, regs_refresh, regs_modify]
  by_cases level : j ∈ c.regs.elcr
  · simp [level]
  · simp [level, and_comm]

/-- Without automatic end of interrupt, an acknowledged secondary offers nothing: the line that was
offered is in service now, and it had the least rank. -/
theorem pending?_acknowledge {c : Chip .secondary} {j : Line} (offered : c.pending? = some j)
    (manual : c.regs.autoEoi = false) : (c.acknowledge j).pending? = none := by
  obtain ⟨⟨candidate, least⟩, -⟩ := Registers.pending?_eq_some_iff.mp offered
  obtain ⟨-, unmasked⟩ := LineSet.mem_sdiff.mp candidate
  have same : (c.acknowledge j).regs.top = c.regs.top := by simp [acknowledge, manual]
  apply Registers.pending?_eq_none_of_blocking (j := j)
  · have served : j ∈ (c.acknowledge j).regs.isr := by simp [acknowledge, manual]
    exact Registers.mem_blocking.mpr ⟨served, fun _ => unmasked, by simp⟩
  · intro k hk
    rw [same]
    -- a cycle raises no request, so every candidate was one before
    have before : k ∈ c.regs.candidates := by
      obtain ⟨requested, unmasked⟩ := LineSet.mem_sdiff.mp hk
      exact LineSet.mem_sdiff.mpr ⟨(mem_irr_acknowledge.mp requested).1, unmasked⟩
    exact least k before

end Chip

end PicCascade
