import PicCascade.Proofs.Chip.Service

/-!
# Nested service on one chip

Without automatic end of interrupt and without the special modes, a line is only taken into service
if it ranks above all lines in service. So the lines in service form a stack: the newest on top, the
ranks rising from there. The command that ends the service of the line with the highest priority
takes the top off.

Results:
* `Nested.highest?_isr`: the line in service with the highest priority is the top of the stack.
* `nested_acknowledge`, `nested_endHighest`: an acknowledge cycle pushes, the end of a service pops.
* `nested_setLine`, `nested_writeData`, `nested_writeElcr`: other operations leave the stack alone.
-/

namespace PicCascade

namespace Registers

/-- The chip is in fully nested mode, and the lines in service are those of the stack, in the order
of their ranks. -/
structure Nested (r : Registers) (stack : List Line) : Prop where
  ready : r.stage = .ready
  ordinaryMask : r.specialMask = false
  ordinaryNesting : r.specialFullyNested = false
  manual : r.autoEoi = false
  mem_iff : ∀ i, i ∈ stack ↔ i ∈ r.isr
  sorted : stack.Pairwise fun i j => (Line.rank r.top i).val < (Line.rank r.top j).val

variable {position : Position} {r : Registers} {stack : List Line} {i : Line}

theorem nested_nil (ready : r.stage = .ready) (ordinaryMask : r.specialMask = false)
    (ordinaryNesting : r.specialFullyNested = false) (manual : r.autoEoi = false)
    (idle : r.isr = ∅) : r.Nested [] where
  ready := ready
  ordinaryMask := ordinaryMask
  ordinaryNesting := ordinaryNesting
  manual := manual
  mem_iff i := by simp [idle]
  sorted := List.Pairwise.nil

namespace Nested

/-- Lines of equal rank are equal, so a line is only once on the stack. -/
theorem nodup (h : r.Nested stack) : stack.Nodup := by
  refine h.sorted.imp fun below same => ?_
  rw [same] at below
  exact Nat.lt_irrefl _ below

/-- Requests, edge detectors, masks and trigger modes may change below a stack. -/
theorem withInputs (h : r.Nested stack) {irr lastHigh imr elcr : LineSet 8} :
    Nested { r with irr, lastHigh, imr, elcr } stack :=
  ⟨h.ready, h.ordinaryMask, h.ordinaryNesting, h.manual, h.mem_iff, h.sorted⟩

theorem highest?_isr (h : r.Nested stack) : r.isr.highest? r.top = stack.head? := by
  cases stack with
  | nil =>
    apply LineSet.highest?_eq_none_iff.mpr
    ext i
    rw [← h.mem_iff]
    simp
  | cons i rest =>
    obtain ⟨below, -⟩ := List.pairwise_cons.mp h.sorted
    refine LineSet.highest?_eq_some_iff.mpr ⟨(h.mem_iff i).mp List.mem_cons_self, ?_⟩
    intro j served
    rcases List.mem_cons.mp ((h.mem_iff j).mpr served) with rfl | old
    · exact Nat.le_refl _
    · exact Nat.le_of_lt (below j old)

/-- In fully nested mode every line in service blocks. -/
theorem blocking_eq (h : r.Nested stack) : r.blocking position = r.isr := by
  ext i
  simp [mem_blocking, h.ordinaryMask, h.ordinaryNesting]

/-- An offered line ranks above the whole stack. -/
theorem lt_of_pending? (h : r.Nested stack) (offered : r.pending? position = some i) :
    ∀ j ∈ stack, (Line.rank r.top i).val < (Line.rank r.top j).val := by
  intro j old
  apply (pending?_eq_some_iff.mp offered).2 j
  rw [h.blocking_eq]
  exact (h.mem_iff j).mp old

end Nested

end Registers

namespace Chip

variable {position : Position} {c : Chip position} {stack : List Line} {i : Line}

theorem nested_setLine (h : c.regs.Nested stack) (i : Line) (level : Bool) :
    (c.setLine i level).regs.Nested stack := h.withInputs

theorem nested_writeElcr (h : c.regs.Nested stack) (writable : LineSet 8) (value : UInt8) :
    (c.writeElcr writable value).regs.Nested stack := h.withInputs

/-- Outside of an initialisation, the data port is the mask register. -/
theorem nested_writeData (h : c.regs.Nested stack) (value : UInt8) :
    (c.writeData value).regs.Nested stack := by
  rw [writeData, h.ready]
  exact h.withInputs

/-- An acknowledge cycle pushes the line that was offered. -/
theorem nested_acknowledge (h : c.regs.Nested stack) (offered : c.pending? = some i) :
    (c.acknowledge i).regs.Nested (i :: stack) := by
  have top : (c.acknowledge i).regs.top = c.regs.top := by simp [acknowledge, h.manual]
  refine ⟨h.ready, h.ordinaryMask, h.ordinaryNesting, h.manual, ?_, ?_⟩
  · intro j
    simp [acknowledge, h.manual, h.mem_iff]
  · rw [top]
    exact List.pairwise_cons.mpr ⟨h.lt_of_pending? offered, h.sorted⟩

/-- The end of the service with the highest priority takes the top off the stack. -/
theorem regs_endHighest (h : c.regs.Nested stack) :
    (c.execute (.endHighest false)).regs =
      match stack with
      | [] => c.regs
      | i :: _ => { c.regs with isr := c.regs.isr.erase i } := by
  rw [execute, h.highest?_isr]
  cases stack with
  | nil => rfl
  | cons i rest => rfl

theorem nested_endHighest (h : c.regs.Nested stack) :
    (c.execute (.endHighest false)).regs.Nested stack.tail := by
  rw [regs_endHighest h]
  cases stack with
  | nil => exact h
  | cons i rest =>
    refine ⟨h.ready, h.ordinaryMask, h.ordinaryNesting, h.manual, ?_, h.sorted.tail⟩
    intro j
    have fresh : i ∉ rest := (List.nodup_cons.mp h.nodup).1
    rw [LineSet.mem_erase, ← h.mem_iff, List.mem_cons]
    constructor
    · intro old
      exact ⟨fun eq => fresh (eq ▸ old), .inr old⟩
    · rintro ⟨other, rfl | old⟩
      · exact absurd rfl other
      · exact old

end Chip

end PicCascade
