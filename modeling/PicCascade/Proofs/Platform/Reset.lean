import PicCascade.Platform.Latch
import PicCascade.Proofs.Pair.Reset

/-!
# Resets by way of the latch

The platform does not reset a pair whenever a device asks for it. It collects the requests in the
reset latch and acts once on what the latch hands out. The latch keeps the most thorough of the
requests, and that reset leaves what all of them together would have left.

Results:
* `requestAll_latch`: what the latch holds after some requests.
* `coalesced_resets`: one reset of the kind that the latch hands out stands for all requests.
-/

namespace PicCascade

open Pair (ResetKind)

namespace ResetLatch

/-- A request is lost only to a more thorough one. -/
theorem request_noted (kind next : ResetKind) :
    (⟨some kind⟩ : ResetLatch).request next = ⟨some (kind.strongest next)⟩ := by
  cases kind <;> rfl

/-- A latch that holds a request keeps the most thorough one from then on. -/
theorem requestAll_noted (kind : ResetKind) (kinds : List ResetKind) :
    requestAll (⟨some kind⟩ : ResetLatch) kinds =
      ⟨some (kinds.foldl ResetKind.strongest kind)⟩ := by
  induction kinds generalizing kind with
  | nil => rfl
  | cons next kinds ih =>
    have noted := ih (kind.strongest next)
    rw [← request_noted] at noted
    exact noted

theorem requestAll_latch (first : ResetKind) (others : List ResetKind) :
    requestAll ({} : ResetLatch) (first :: others) =
      ⟨some (others.foldl ResetKind.strongest first)⟩ :=
  requestAll_noted first others

end ResetLatch

namespace Pair

variable {Wire : Type}

/-- It is sound to collect reset requests. Let any resets be requested of an empty latch, at least
one. The latch then hands out one kind and is empty, and a reset of that kind leaves the pair that
all the requested resets, one after the other, would have left, and drives the same levels. After a
cold reset the pair is a new one, apart from the wire and the counters. After a device reset each
chip keeps its trigger modes besides. So pairs that agree in these behave alike for good, whatever
they were in the middle of. -/
theorem coalesced_resets (p : Pair Wire) (first : ResetKind) (others : List ResetKind) :
    let each := p.performAll ((first :: others).map .reset)
    let fresh : Pair Wire := new p.config
    ∃ kind, (requestAll ({} : ResetLatch) (first :: others)).take = (some kind, {}) ∧
      (p.reset kind).pair = each.pair ∧ (p.reset kind).driven = each.driven ∧
      (match kind with
        | .cold => each.pair = { fresh with wire := p.wire, counters := p.counters }
        | .device =>
          each.pair = { fresh with
            primary := { regs := { elcr := p.primary.regs.elcr } }
            secondary := { regs := { elcr := p.secondary.regs.elcr } }
            wire := p.wire
            counters := p.counters }) ∧
      ∀ p' history, SameKept kind p p' →
        (p.reset kind).pair.performAll history = (p'.reset kind).pair.performAll history := by
  intro each fresh
  obtain ⟨pair, driven⟩ := p.performAll_resets first others
  generalize held : others.foldl ResetKind.strongest first = kind at pair driven
  refine ⟨kind, ?_, pair.symm, driven.symm, ?_, ?_⟩
  · rw [ResetLatch.requestAll_latch, held]
    rfl
  · cases kind with
    | cold => rw [pair, reset_eq]; rfl
    | device => rw [pair, reset_eq]; rfl
  · intro p' history same
    rw [pair_reset_congr same]

/-- Line 3 is in service, a poll has been asked for, and the secondary is being initialised. -/
def midService : List (Operation Unit) :=
  [.setLine 3 true, .acknowledge, .writePort 0x20 0x0C, .writePort 0xA0 0x11, .writePort 0xA1 0x70]

theorem coalesced_resets_midService :
    let p : Pair Unit := ((new {}).performAll midService).pair
    let p' : Pair Unit := ((new {}).performAll [.setLine 3 true]).pair
    ∃ kind, (requestAll ({} : ResetLatch) [.device, .cold, .device]).take = (some kind, {}) ∧
      ∀ history, (p.reset kind).pair.performAll history =
        (p'.reset kind).pair.performAll history := by
  intro p p'
  obtain ⟨kind, taken, -, -, -, forgotten⟩ := coalesced_resets p .device [.cold, .device]
  have cold : kind = .cold := by
    cases taken
    rfl
  subst cold
  have same : SameKept .cold p p' := by
    constructor <;> decide +kernel
  exact ⟨.cold, taken, fun history => forgotten p' history same⟩

end Pair

end PicCascade
