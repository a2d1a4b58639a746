import PicCascade.Platform.Board
import PicCascade.Proofs.Pair.Acknowledge

/-!
# Looking before acknowledging

A processor can look at the vector that an acknowledge cycle would answer, and it can ask for a cycle
that is run only if there is a request. All of this agrees: the vector that is shown is the one that
the next cycle answers, and when none is shown, a cycle answers the vector of line 7 and changes
nothing.

The processor reaches a pair directly or as one of the pairs of a board, which other devices hold as
well. What the pair drives then goes on to the board, but the answers are the same.

Results:
* `preview_exact`: the vector that is shown, the cycle and the conditional cycle agree, for every
  reachable pair and for the pairs of every board.
-/

namespace PicCascade

namespace Pair

variable {Wire : Type} {p : Pair Wire}

/-- What the pair shows to the processor is what the processor gets. -/
structure Previewed (p : Pair Wire) : Prop where
  /-- A vector is shown iff the pair asks for service. -/
  shown : p.pendingVector?.isSome = true ↔ p.output = true
  /-- A cycle answers the vector that is shown. -/
  answered : ∀ v, p.pendingVector? = some v → p.acknowledge.answer = v
  /-- If none is shown, a cycle answers the vector of line 7 of the primary and does nothing. -/
  spurious : p.pendingVector? = none → p.acknowledge = ⟨p.primary.regs.base + 7, p, []⟩
  /-- The conditional cycle answers what is shown. -/
  asked : p.acknowledgeIfAsserted.answer = p.pendingVector?
  /-- It does what a cycle does if a vector is shown. -/
  taken : ∀ v, p.pendingVector? = some v →
    p.acknowledgeIfAsserted.pair = p.acknowledge.pair ∧
      p.acknowledgeIfAsserted.driven = p.acknowledge.driven
  /-- It does nothing otherwise. -/
  left : p.pendingVector? = none →
    p.acknowledgeIfAsserted.pair = p ∧ p.acknowledgeIfAsserted.driven = []

/-- The conditional cycle answers the vector that is shown. -/
theorem answer_acknowledgeIfAsserted (p : Pair Wire) :
    p.acknowledgeIfAsserted.answer = p.pendingVector? := by
  cases shown : p.pendingVector? with
  | none => rw [acknowledgeIfAsserted_of_none shown]
  | some v =>
    rw [acknowledgeIfAsserted_of_some shown]
    exact congrArg some (answer_acknowledge_of_pendingVector? shown)

/-- If a vector is shown, the conditional cycle has the effect of a cycle. -/
theorem effect_of_some {v : UInt8} (shown : p.pendingVector? = some v) :
    p.acknowledgeIfAsserted.pair = p.acknowledge.pair ∧
      p.acknowledgeIfAsserted.driven = p.acknowledge.driven := by
  rw [acknowledgeIfAsserted_of_some shown]
  exact ⟨rfl, rfl⟩

/-- Otherwise it has none. -/
theorem effect_of_none (shown : p.pendingVector? = none) :
    p.acknowledgeIfAsserted.pair = p ∧ p.acknowledgeIfAsserted.driven = [] := by
  rw [acknowledgeIfAsserted_of_none shown]
  exact ⟨rfl, rfl⟩

theorem previewed_of_settled (settled : p.Settled) : p.Previewed where
  shown := by rw [isSome_pendingVector?]
  answered _ := answer_acknowledge_of_pendingVector?
  spurious none := acknowledge_of_idle settled (pending?_of_pendingVector? none)
  asked := answer_acknowledgeIfAsserted p
  taken _ := effect_of_some
  left := effect_of_none

end Pair

namespace Board

variable {α β : Type} {b : Board}

/-! ## Operations with the same effect -/

/-- Operations with the same effect on the first pair have the same effect on the board. -/
theorem onFirst_congr {op : Pair Probe → Outcome Probe α} {op' : Pair Probe → Outcome Probe β}
    (pair : (op b.first).pair = (op' b.first).pair)
    (driven : (op b.first).driven = (op' b.first).driven) :
    (b.onFirst op).2 = (b.onFirst op').2 := by
  simp only [onFirst, pair, driven]

theorem onFirst_of_idle {op : Pair Probe → Outcome Probe α} (pair : (op b.first).pair = b.first)
    (driven : (op b.first).driven = []) : (b.onFirst op).2 = b := by
  simp only [onFirst, pair, driven]
  rfl

/-- The same goes for the second pair. -/
theorem onSecond_congr {op : Pair Outlet → Outcome Outlet α} {op' : Pair Outlet → Outcome Outlet β}
    {p : Pair Outlet} (second : b.second = some p) (pair : (op p).pair = (op' p).pair)
    (driven : (op p).driven = (op' p).driven) : (b.onSecond op).2 = (b.onSecond op').2 := by
  simp only [onSecond, second, pair, driven]

theorem onSecond_of_idle {op : Pair Outlet → Outcome Outlet α} {p : Pair Outlet}
    (second : b.second = some p) (pair : (op p).pair = p) (driven : (op p).driven = []) :
    (b.onSecond op).2 = b := by
  have same : { b with second := some p } = b := by rw [← second]
  simp only [onSecond, second, pair, driven]
  exact same

theorem fst_onSecond {op : Pair Outlet → Outcome Outlet α} {p : Pair Outlet}
    (second : b.second = some p) : (b.onSecond op).1 = some (op p).answer := by
  simp only [onSecond, second]

/-! ## The pairs of a board -/

/-- The vector that one of the pairs shows, if the pair is there. -/
def shown? (b : Board) : Slot → Option (Option UInt8)
  | .first => some b.first.pendingVector?
  | .second => b.second.map Pair.pendingVector?

/-- What one of the pairs shows to the processor is what the processor gets through the board. -/
structure Previewed (b : Board) (slot : Slot) : Prop where
  /-- The conditional cycle answers what is shown. -/
  asked : (b.perform slot .acknowledgeIfAsserted).1 = (b.shown? slot).map Pair.Answer.vector
  /-- If a vector is shown, a cycle answers it, and the conditional cycle does the same to the pair
  and to all that the pair drives. -/
  taken : ∀ v, b.shown? slot = some (some v) →
    (b.perform slot .acknowledge).1 = some (.byte v) ∧
      (b.perform slot .acknowledgeIfAsserted).2 = (b.perform slot .acknowledge).2
  /-- Otherwise the conditional cycle does nothing. -/
  left : b.shown? slot = some none → (b.perform slot .acknowledgeIfAsserted).2 = b

theorem previewed_first (b : Board) : b.Previewed .first := by
  constructor
  case asked => exact congrArg (some ∘ Pair.Answer.vector) b.first.answer_acknowledgeIfAsserted
  case taken =>
    intro v shown
    have vector : b.first.pendingVector? = some v := Option.some.inj shown
    obtain ⟨pair, driven⟩ := Pair.effect_of_some vector
    refine ⟨?_, onFirst_congr pair driven⟩
    exact congrArg (some ∘ Pair.Answer.byte) (Pair.answer_acknowledge_of_pendingVector? vector)
  case left =>
    intro none
    have vector : b.first.pendingVector? = .none := Option.some.inj none
    obtain ⟨pair, driven⟩ := Pair.effect_of_none vector
    exact onFirst_of_idle pair driven

theorem previewed_second (b : Board) : b.Previewed .second := by
  cases second : b.second with
  | none =>
    constructor
    case asked => simp [perform, onSecond, shown?, second]
    case taken => simp [shown?, second]
    case left => simp [shown?, second]
  | some p =>
    have shows : b.shown? .second = some p.pendingVector? := by rw [shown?, second, Option.map_some]
    constructor
    case asked =>
      rw [shows]
      exact (fst_onSecond second).trans
        (congrArg (some ∘ Pair.Answer.vector) p.answer_acknowledgeIfAsserted)
    case taken =>
      intro v shown
      have vector : p.pendingVector? = some v := Option.some.inj (shows.symm.trans shown)
      obtain ⟨pair, driven⟩ := Pair.effect_of_some vector
      refine ⟨(fst_onSecond second).trans ?_, onSecond_congr second pair driven⟩
      exact congrArg (some ∘ Pair.Answer.byte) (Pair.answer_acknowledge_of_pendingVector? vector)
    case left =>
      intro none
      have vector : p.pendingVector? = .none := Option.some.inj (shows.symm.trans none)
      obtain ⟨pair, driven⟩ := Pair.effect_of_none vector
      exact onSecond_of_idle second pair driven

end Board

/-- In every reachable pair the vector that is shown, the cycle and the conditional cycle agree, and
so they do for each pair of every board. -/
theorem preview_exact (Wire : Type) :
    (∀ (config : Config) (p : Pair Wire), Pair.Reachable config p → p.Previewed) ∧
      ∀ (b : Board) (slot : Slot), b.Previewed slot := by
  refine ⟨fun config p reachable => Pair.previewed_of_settled reachable.sound.settled, ?_⟩
  intro b slot
  cases slot with
  | first => exact b.previewed_first
  | second => exact b.previewed_second

/-- The vectors of the secondary begin at 0x70. Its line 9 is level-triggered and falls again after
its request has reached the primary. -/
def withdrawnRequest : List (Pair.Operation Probe) :=
  [.writePort 0xA0 0x11, .writePort 0xA1 0x70, .writePort 0xA1 0x02, .writePort 0xA1 0x01,
    .writePort 0x4D1 0x02, .setLine 9 true, .setLine 9 false]

/-- The vector of line 7 of the secondary is shown and is what the processor gets from the pair, and
from a board with it. -/
theorem preview_exact_withdrawnRequest :
    let p := ((Pair.new {}).performAll withdrawnRequest).pair
    let b : Board := { first := p }
    p.pendingVector? = some 0x77 ∧ p.output = true ∧ p.acknowledge.answer = 0x77 ∧
      p.acknowledgeIfAsserted.answer = some 0x77 ∧
      (b.perform .first .acknowledgeIfAsserted).1 = some (.vector (some 0x77)) ∧
      (b.perform .first .acknowledgeIfAsserted).2 = (b.perform .first .acknowledge).2 := by
  intro p b
  obtain ⟨pairs, boards⟩ := preview_exact Probe
  have previewed := pairs {} p ⟨withdrawnRequest, rfl⟩
  have throughBoard := boards b .first
  have vector : p.pendingVector? = some 0x77 := by decide +kernel
  have shown : b.shown? .first = some (some 0x77) := congrArg some vector
  refine ⟨vector, previewed.shown.mp (congrArg Option.isSome vector), previewed.answered _ vector,
    previewed.asked.trans vector, ?_, (throughBoard.taken _ shown).2⟩
  rw [throughBoard.asked, shown]
  rfl

end PicCascade
