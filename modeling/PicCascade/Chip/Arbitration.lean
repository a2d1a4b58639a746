import PicCascade.Chip.Registers

/-!
# Arbitration between lines

The rank of a line is its distance from the line with the highest priority; the lower the rank, the
higher the priority. A chip offers the requested and unmasked line of the lowest rank, provided
that this rank is below the rank of every line whose service blocks it.

Results:
* `LineSet.highest?_eq_some_iff`: `highest?` finds the member of the lowest rank.
* `LineSet.highest?_eq_none_iff`: it finds none only in the empty set.
-/

namespace PicCascade

/-- The distance of a line from the line `top` with the highest priority. -/
def Line.rank (top i : Line) : Line := i - top

namespace LineSet

/-- All lines in the order of their ranks. -/
def ranked (top : Line) : List Line := (List.finRange 8).map (top + ·)

/-- The member of the lowest rank (what `priority` searches for). -/
def highest? (top : Line) (s : LineSet 8) : Option Line := (ranked top).find? (· ∈ s)

end LineSet

namespace Registers

/-- The lines that ask for service: requested and not masked (the first mask of `pending_irq`). -/
def candidates (r : Registers) : LineSet 8 := r.irr \ r.imr

/-- The lines in service that keep lines of the same or a higher rank waiting (`in_service` in
`pending_irq`). With special mask mode these are the unmasked ones only. With special fully nested
mode on the primary the cascade line is not among them, so that the secondary can interrupt its own
service. -/
def blocking (position : Position) (r : Registers) : LineSet 8 :=
  let unmasked := if r.specialMask then r.isr \ r.imr else r.isr
  if r.specialFullyNested && position = .primary then unmasked.erase Line.cascade else unmasked

/-- The line that the chip offers for service (`pending_irq`). -/
def pending? (position : Position) (r : Registers) : Option Line :=
  (r.candidates.highest? r.top).filter fun i =>
    ((r.blocking position).highest? r.top).all fun j =>
      (Line.rank r.top i).val < (Line.rank r.top j).val

end Registers

/-! ## The member of the lowest rank -/

theorem Line.rank_inj {top i j : Line} : Line.rank top i = Line.rank top j ↔ i = j := by
  revert top i j
  decide

namespace LineSet

theorem mem_ranked (top i : Line) : i ∈ ranked top := by
  revert top i
  decide

theorem pairwise_ranked (top : Line) :
    (ranked top).Pairwise fun i j => (Line.rank top i).val < (Line.rank top j).val := by
  revert top
  decide

theorem highest?_eq_none_iff {top : Line} {s : LineSet 8} : s.highest? top = none ↔ s = ∅ := by
  simp only [highest?, List.find?_eq_none, mem_ranked, decide_eq_true_eq, true_implies]
  constructor
  · intro h
    ext i
    simp [h i]
  · rintro rfl i
    exact not_mem_empty i

theorem least_of_highest? {top i : Line} {s : LineSet 8} (h : s.highest? top = some i) :
    i ∈ s ∧ ∀ j ∈ s, (Line.rank top i).val ≤ (Line.rank top j).val := by
  obtain ⟨found, before, after, split, skipped⟩ := List.find?_eq_some_iff_append.mp h
  have sorted := pairwise_ranked top
  refine ⟨by simpa using found, fun j hj => ?_⟩
  have hmem := mem_ranked top j
  rw [split] at sorted hmem
  rcases List.mem_append.mp hmem with hb | ha
  · exact absurd hj (by simpa using skipped j hb)
  · rcases List.mem_cons.mp ha with rfl | ha
    · exact Nat.le_refl _
    · exact Nat.le_of_lt ((List.pairwise_cons.mp (List.pairwise_append.mp sorted).2.1).1 j ha)

theorem highest?_eq_some_iff {top i : Line} {s : LineSet 8} :
    s.highest? top = some i ↔
      i ∈ s ∧ ∀ j ∈ s, (Line.rank top i).val ≤ (Line.rank top j).val := by
  refine ⟨least_of_highest?, fun ⟨hi, least⟩ => ?_⟩
  cases hk : s.highest? top with
  | none => exact absurd hi (highest?_eq_none_iff.mp hk ▸ not_mem_empty i)
  | some k =>
    obtain ⟨hks, least'⟩ := least_of_highest? hk
    have same : (Line.rank top i).val = (Line.rank top k).val :=
      Nat.le_antisymm (least k hks) (least' i hi)
    rw [Line.rank_inj.mp (Fin.ext same)]

end LineSet

end PicCascade
