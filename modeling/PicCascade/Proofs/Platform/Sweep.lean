import Mathlib.Logic.Function.Iterate
import PicCascade.Platform.Assembly
import PicCascade.Proofs.Pair.Notification
import PicCascade.Proofs.Pair.Reset
import PicCascade.Proofs.Platform.Traffic

/-!
# The order of a bus reset

A bus resets through its handlers in no particular order, and a pair has one handler for each of its
ports. So a pair is reset as often as it has ports mapped, and if a second pair drives a line of the
first, resetting the second may drop this line before, between or after resets of the first.

What a list of handlers leaves is described by whether it visits each of the pairs and by how often it
visits the other handlers (`Assembly.Swept`); neither depends on the order. The induction over the list
rests on two facts about pairs: resets in a row are one, and a line that goes low can be exchanged with
a cold reset.

Results:
* `Pair.swept_swept`: two groups of resets leave of the first pair what all of them together leave.
* `PortBus.mem_values`: the handlers that a reset visits.
* `Assembly.swept_reset`, `Assembly.Swept.append`, `Assembly.swept_resetEach`: one reset, two sweeps in
  a row, and a sweep through any handlers.
* `Assembly.reset_in_any_order`: the devices after a bus reset, in whatever order.
-/

namespace PicCascade

/-! ## Resets of the pairs -/

/-- The first pair once the second, which drives line `n` of it, has lowered its output. -/
def Pair.released (p : Pair Probe) (n : UInt8) (q : Pair Outlet) : Pair Probe :=
  if q.level then (p.setLine n false).pair else p

/-- It makes no difference whether the second pair lowers its output before or after a cold reset of
the first. -/
theorem Pair.released_cleared (p : Pair Probe) (n : UInt8) (q : Pair Outlet) :
    (p.cleared .cold).released n q = (p.released n q).cleared .cold := by
  unfold released
  split
  · exact pair_setLine_cleared p n
  · rfl

namespace Board

/-- A reset through a handler of the first pair clears it. -/
theorem resetPort_first (b : Board) (route : Option FaultRoute) :
    ∃ recorded cell, b.resetPort (.first route) =
      { b with first := b.first.cleared .cold, recorded, cell } := by
  obtain ⟨recorded, cell, eq⟩ := b.onFirst_eq (·.reset .cold)
  refine ⟨recorded, cell, ?_⟩
  rw [resetPort, eq, Pair.reset_eq]

/-- A reset through a handler of the second pair clears it and releases the line that it drives. -/
theorem resetPort_second {b : Board} {q : Pair Outlet} {n : UInt8} (second : b.second = some q)
    (wire : q.wire = some (.request n)) (reports : Bool) :
    ∃ recorded cell, b.resetPort (.second reports) =
      { b with
        first := b.first.released n q, second := some (q.cleared .cold), recorded, cell } := by
  rw [resetPort, onSecond, second]
  simp only [Pair.reset_eq, wire]
  unfold Pair.released
  cases q.level with
  | false => exact ⟨b.recorded, b.cell, rfl⟩
  | true =>
    obtain ⟨recorded, cell, eq⟩ :=
      onFirst_eq { b with second := some (q.cleared .cold) } (·.setLine n false)
    exact ⟨recorded, cell, congrArg Prod.snd eq⟩

/-- The cell shows the level of the first pair, if it hangs on its output. -/
def CellInStep (b : Board) : Prop := b.first.wire = some .cell → b.cell = b.first.level

theorem CellInStep.onFirst {α : Type} {b : Board} {op : Pair Probe → Outcome Probe α}
    (inStep : b.CellInStep) (follows : b.first.Follows (op b.first)) :
    (b.onFirst op).2.CellInStep := by
  intro hangs
  obtain ⟨recorded, cell, eq⟩ := b.onFirst_eq op
  have wire : b.first.wire = some .cell := by
    rw [eq] at hangs
    rw [← follows.wire]
    exact hangs
  have level := inStep wire
  show ({ b with first := (op b.first).pair }.driveProbes (op b.first).driven).cell =
    ({ b with first := (op b.first).pair }.driveProbes (op b.first).driven).first.level
  rw [follows.driven, wire]
  split
  · rename_i same
    exact level.trans same.symm
  · rfl

/-- A reset of the first pair drives the cell, and the second pair drives the first pair only. -/
theorem CellInStep.resetPort {b : Board} (inStep : b.CellInStep) {q : Pair Outlet} {n : UInt8}
    (second : b.second = some q) (wire : q.wire = some (.request n)) (handler : Handler) :
    (b.resetPort handler).CellInStep := by
  cases handler with
  | first route => exact inStep.onFirst (b.first.follows_reset .cold)
  | second reports =>
    rw [Board.resetPort, onSecond, second]
    simp only [Pair.reset_eq, wire]
    have cleared : CellInStep { b with second := some (q.cleared .cold) } := inStep
    cases q.level with
    | false => exact cleared
    | true => exact cleared.onFirst (b.first.follows_setLine n false)
  | scratch id resettable =>
    cases resettable with
    | false => exact inStep
    | true => exact inStep

@[simp]
theorem scratchAt_setScratch (b : Board) (id : Nat) (s : Scratch) (id' : Nat) :
    (b.setScratch id s).scratchAt id' = if id = id' then s else b.scratchAt id' := by
  unfold setScratch scratchAt
  rw [Std.TreeMap.getElem?_insert]
  by_cases same : id = id'
  · simp [same]
  · simp [same]

end Board

/-! ## What several resets leave of the pairs -/

namespace Pair

variable {Wire : Type}

/-- The pair, cold-reset or not. -/
def clearedIf (p : Pair Wire) (clears : Bool) : Pair Wire :=
  if clears then p.cleared .cold else p

/-- The first pair after resets: perhaps one of the second pair `q`, which drives line `n`, and perhaps
one of its own. -/
def swept (p : Pair Probe) (n : UInt8) (q : Pair Outlet) (clears releases : Bool) : Pair Probe :=
  (if releases then p.released n q else p).clearedIf clears

theorem wire_clearedIf {p : Pair Wire} {c : Bool} : (p.clearedIf c).wire = p.wire := by
  cases c with
  | false => rfl
  | true => rfl

theorem clearedIf_clearedIf (p : Pair Wire) (c c' : Bool) :
    (p.clearedIf c).clearedIf c' = p.clearedIf (c || c') := by
  cases c with
  | false => rfl
  | true =>
    cases c' with
    | false => rfl
    | true => exact cleared_cleared p .cold .cold

/-- However the resets are spread, it counts only whether there is one. -/
theorem swept_swept (p : Pair Probe) (n : UInt8) (q : Pair Outlet) (c r c' r' : Bool) :
    (p.swept n q c r).swept n (q.clearedIf r) c' r' = p.swept n q (c || c') (r || r') := by
  unfold swept
  rw [← clearedIf_clearedIf]
  congr 1
  cases r' with
  | false => rw [if_neg Bool.false_ne_true, Bool.or_false]
  | true =>
    cases r with
    -- The second pair has been cleared before and has no output to lower.
    | true => rfl
    | false =>
      cases c with
      | false => rfl
      | true => exact released_cleared p n q

end Pair

/-! ## Who is visited -/

/-- The pair that a handler belongs to. -/
def Handler.slot? : Handler → Option Slot
  | .first _ => some .first
  | .second _ => some .second
  | .scratch .. => none

namespace PortBus

theorem values_eq_map_toList {α : Type} (t : Std.TreeMap UInt16 α) :
    t.values = t.toList.map Prod.snd := by
  show t.inner.inner.values =
    (Std.DTreeMap.Internal.Impl.Const.toList t.inner.inner).map Prod.snd
  rw [Std.DTreeMap.Internal.Impl.values_eq_map_snd,
    Std.DTreeMap.Internal.Impl.Const.toList_eq_toListModel_map, List.map_map]
  rfl

/-- The handlers that a reset visits are those at the ports. -/
theorem mem_values {H : Type} {bus : PortBus H} {h : H} :
    h ∈ bus.handlers.values ↔ ∃ port, bus.at? port = some h := by
  rw [values_eq_map_toList, List.mem_map]
  constructor
  · rintro ⟨entry, mem, rfl⟩
    exact ⟨entry.1, Std.TreeMap.mem_toList_iff_getElem?_eq_some.mp mem⟩
  · rintro ⟨port, found⟩
    exact ⟨(port, h), Std.TreeMap.mem_toList_iff_getElem?_eq_some.mpr found, rfl⟩

variable {Device : Type}

/-- Some port of a pair is mapped. -/
def Maps (bus : PortBus (Handler ⊕ Device)) (slot : Slot) : Prop :=
  ∃ port handler, bus.at? port = some (.inl handler) ∧ handler.slot? = some slot

end PortBus

namespace Assembly

open PortBus (resetEach)

variable {Device : Type} {State : Device → Type}

/-- Whether one of some handlers belongs to a pair. -/
def visits (slot : Slot) (handlers : List (Handler ⊕ Device)) : Bool :=
  handlers.any fun
    | .inl handler => handler.slot? = some slot
    | .inr _ => false

theorem visits_append (slot : Slot) (handlers others : List (Handler ⊕ Device)) :
    visits slot (handlers ++ others) = (visits slot handlers || visits slot others) :=
  List.any_append

theorem visits_perm {order handlers : List (Handler ⊕ Device)}
    (perm : order.Perm handlers) (slot : Slot) :
    visits slot order = visits slot handlers :=
  perm.any_eq

theorem visits_values_iff {bus : PortBus (Handler ⊕ Device)} {slot : Slot} :
    visits slot bus.handlers.values = true ↔ bus.Maps slot := by
  rw [visits, List.any_eq_true]
  constructor
  · rintro ⟨h | d, mem, same⟩
    · obtain ⟨port, found⟩ := PortBus.mem_values.mp mem
      exact ⟨port, h, found, of_decide_eq_true same⟩
    · exact absurd same Bool.false_ne_true
  · rintro ⟨port, handler, found, same⟩
    exact ⟨.inl handler, PortBus.mem_values.mpr ⟨port, found⟩, decide_eq_true same⟩

variable [DecidableEq Device]

/-- How often a handler is among some handlers. -/
def visitsOf (handler : Handler ⊕ Device) (handlers : List (Handler ⊕ Device)) : Nat :=
  handlers.countP (· = handler)

theorem visitsOf_append (handler : Handler ⊕ Device) (handlers others : List (Handler ⊕ Device)) :
    visitsOf handler (handlers ++ others) = visitsOf handler handlers + visitsOf handler others :=
  List.countP_append

theorem visitsOf_perm {order handlers : List (Handler ⊕ Device)}
    (perm : order.Perm handlers) (h : Handler ⊕ Device) : visitsOf h order = visitsOf h handlers :=
  perm.countP_eq _

/-! ## Sweeps -/

variable [OwnState Device State]

/-- What a reset through some handlers, one after the other, makes of an assembly whose second pair,
`q`, drives line `n` of the first. -/
structure Swept (handlers : List (Handler ⊕ Device)) (n : UInt8) (q : Pair Outlet)
    (a a' : Assembly Device State) : Prop where
  first : a'.board.first =
    a.board.first.swept n q (visits .first handlers) (visits .second handlers)
  second : a'.board.second = some (q.clearedIf (visits .second handlers))
  scratchAt : ∀ id, a'.board.scratchAt id =
    Scratch.reset^[visitsOf (.inl (.scratch id true)) handlers] (a.board.scratchAt id)
  states : ∀ d, a'.states d = (OwnState.reset d)^[visitsOf (.inr d) handlers] (a.states d)
  faults : a'.board.faults = a.board.faults
  journal : a'.board.journal = a.board.journal
  resets : a'.board.resets = a.board.resets

variable {handlers others : List (Handler ⊕ Device)} {n : UInt8} {q : Pair Outlet}
  {a a₁ a₂ : Assembly Device State}

/-- One sweep after another is one sweep. -/
theorem Swept.append (before : Swept handlers n q a a₁)
    (after : Swept others n (q.clearedIf (visits .second handlers)) a₁ a₂) :
    Swept (handlers ++ others) n q a a₂ where
  first := by rw [after.first, before.first, Pair.swept_swept, visits_append, visits_append]
  second := by rw [after.second, Pair.clearedIf_clearedIf, visits_append]
  scratchAt id := by
    rw [after.scratchAt, before.scratchAt, visitsOf_append, Nat.add_comm, Function.iterate_add_apply]
  states d := by
    rw [after.states, before.states, visitsOf_append, Nat.add_comm, Function.iterate_add_apply]
  faults := after.faults.trans before.faults
  journal := after.journal.trans before.journal
  resets := after.resets.trans before.resets

/-- A reset through one handler. -/
theorem swept_reset (second : a.board.second = some q) (wire : q.wire = some (.request n))
    (h : Handler ⊕ Device) : Swept [h] n q a (PortDevice.reset h a) := by
  cases h with
  | inr d =>
    refine ⟨rfl, second, fun _ => rfl, fun d' => ?_, rfl, rfl, rfl⟩
    show Function.update a.states d (OwnState.reset d (a.states d)) d' = _
    by_cases same : d = d'
    · subst same
      simp [visitsOf]
    · simp [visitsOf, same, Function.update_of_ne (Ne.symm same)]
  | inl handler =>
    show Swept _ n q a { a with board := a.board.resetPort handler }
    cases handler with
    | first route =>
      obtain ⟨recorded, cell, eq⟩ := a.board.resetPort_first route
      rw [eq]
      exact ⟨rfl, second, fun _ => rfl, fun _ => rfl, rfl, rfl, rfl⟩
    | second reports =>
      obtain ⟨recorded, cell, eq⟩ := a.board.resetPort_second second wire reports
      rw [eq]
      exact ⟨rfl, rfl, fun _ => rfl, fun _ => rfl, rfl, rfl, rfl⟩
    | scratch id resettable =>
      cases resettable with
      | false =>
        refine ⟨rfl, second, fun id' => ?_, fun _ => rfl, rfl, rfl, rfl⟩
        show a.board.scratchAt id' = _
        simp [visitsOf]
      | true =>
        refine ⟨rfl, second, fun id' => ?_, fun _ => rfl, rfl, rfl, rfl⟩
        show (a.board.setScratch id (a.board.scratchAt id).reset).scratchAt id' = _
        rw [Board.scratchAt_setScratch]
        by_cases same : id = id'
        · subst same
          simp [visitsOf]
        · simp [visitsOf, same]

theorem swept_resetEach (handlers : List (Handler ⊕ Device)) (second : a.board.second = some q)
    (wire : q.wire = some (.request n)) : Swept handlers n q a (resetEach handlers a) := by
  induction handlers generalizing a q with
  | nil => exact ⟨rfl, second, fun _ => rfl, fun _ => rfl, rfl, rfl, rfl⟩
  | cons h handlers ih =>
    have step := swept_reset second wire h
    exact step.append (ih step.second (Pair.wire_clearedIf.trans wire))

/-! ## Any order -/

/-- The assemblies agree in all devices. What was recorded of the output of the first pair is not the
state of a device. -/
structure SameDevices (a a' : Assembly Device State) : Prop where
  first : a.board.first = a'.board.first
  second : a.board.second = a'.board.second
  scratchAt : ∀ id, a.board.scratchAt id = a'.board.scratchAt id
  states : a.states = a'.states
  faults : a.board.faults = a'.board.faults
  journal : a.board.journal = a'.board.journal
  resets : a.board.resets = a'.board.resets

/-- Sweeps through the same handlers leave the same devices. -/
theorem Swept.sameDevices {order : List (Handler ⊕ Device)} (perm : order.Perm handlers)
    (one : Swept order n q a a₁) (other : Swept handlers n q a a₂) : SameDevices a₁ a₂ where
  first := by rw [one.first, other.first, visits_perm perm, visits_perm perm]
  second := by rw [one.second, other.second, visits_perm perm]
  scratchAt id := by rw [one.scratchAt, other.scratchAt, visitsOf_perm perm]
  states := by
    funext d
    rw [one.states, other.states, visitsOf_perm perm]
  faults := one.faults.trans other.faults.symm
  journal := one.journal.trans other.journal.symm
  resets := one.resets.trans other.resets.symm

theorem cellInStep_resetEach (handlers : List (Handler ⊕ Device)) (inStep : a.board.CellInStep)
    (second : a.board.second = some q) (wire : q.wire = some (.request n)) :
    (resetEach handlers a).board.CellInStep := by
  induction handlers generalizing a q with
  | nil => exact inStep
  | cons h handlers ih =>
    have step := swept_reset second wire h
    have next : (PortDevice.reset h a).board.CellInStep := by
      cases h with
      | inl handler => exact inStep.resetPort second wire handler
      | inr d => exact inStep
    exact ih next step.second (Pair.wire_clearedIf.trans wire)

/-- A bus reset does not depend on the order in which the handlers are visited. Let the second pair
drive a line of the first, whichever and however many of their ports are mapped, next to whatever
other devices. Every order leaves the same devices:
* a pair with a mapped port is as after power-on, with a low output, however often it was visited;
* a second pair without a mapped port is left alone;
* so is a first pair without a mapped port, except that it sees the line of the second one drop if
  this was high;
* and a cell that followed the output of the first pair still does. -/
theorem reset_in_any_order (bus : PortBus (Handler ⊕ Device)) (a : Assembly Device State)
    {q : Pair Outlet} {n : UInt8} (second : a.board.second = some q)
    (wire : q.wire = some (.request n)) {order : List (Handler ⊕ Device)}
    (visit : order.Perm bus.handlers.values) :
    let a' := resetEach order a
    SameDevices a' (bus.reset a) ∧
      (bus.Maps .first → a'.board.first.primary = {} ∧ a'.board.first.secondary = {} ∧
        a'.board.first.level = false) ∧
      (bus.Maps .second → ∃ q', a'.board.second = some q' ∧ q'.primary = {} ∧ q'.secondary = {} ∧
        q'.level = false) ∧
      (¬ bus.Maps .second → a'.board.second = some q) ∧
      (¬ bus.Maps .first → bus.Maps .second → q.level = true →
        a'.board.first = (a.board.first.setLine n false).pair) ∧
      (¬ bus.Maps .first → ¬ bus.Maps .second ∨ q.level = false →
        a'.board.first = a.board.first) ∧
      (a.board.CellInStep → a'.board.CellInStep) := by
  intro a'
  have swept : Swept order n q a a' := swept_resetEach order second wire
  have asMapped (slot : Slot) : visits slot order = true ↔ bus.Maps slot := by
    rw [visits_perm visit]
    exact visits_values_iff
  refine ⟨swept.sameDevices visit (swept_resetEach _ second wire), ?_, ?_, ?_, ?_, ?_, ?_⟩
  · intro mapped
    rw [swept.first, (asMapped .first).mpr mapped]
    exact ⟨rfl, rfl, rfl⟩
  · intro mapped
    rw [swept.second, (asMapped .second).mpr mapped]
    exact ⟨_, rfl, rfl, rfl, rfl⟩
  · intro unmapped
    rw [swept.second, Bool.eq_false_iff.mpr (mt (asMapped .second).mp unmapped)]
    rfl
  · intro unmapped mapped high
    rw [swept.first, Bool.eq_false_iff.mpr (mt (asMapped .first).mp unmapped),
      (asMapped .second).mpr mapped]
    show a.board.first.released n q = _
    rw [Pair.released, if_pos high]
  · rintro unmapped (alone | low)
    · rw [swept.first, Bool.eq_false_iff.mpr (mt (asMapped .first).mp unmapped),
        Bool.eq_false_iff.mpr (mt (asMapped .second).mp alone)]
      rfl
    · rw [swept.first, Bool.eq_false_iff.mpr (mt (asMapped .first).mp unmapped)]
      have nothing : a.board.first.released n q = a.board.first := by
        rw [Pair.released, low]
        rfl
      rw [Pair.swept, nothing, ite_self]
      rfl
  · intro inStep
    exact cellInStep_resetEach order inStep second wire

/-- A device whose reset halves its state, so that it makes a difference how often it is visited. -/
inductive Countdown where
  | left
  | right
deriving DecidableEq

instance : OwnState Countdown (fun _ => Nat) where
  read _ _ _ s := (UInt32.ofNat s, s)
  write _ _ _ value _ := value.toNat
  reset _ s := s / 2

/-- Line 3 of the second pair is high and with it line 5 of the first. -/
def stacked : Assembly Countdown (fun _ => Nat) where
  board :=
    let high : Config := { primary := ⟨0x120, none, ∅⟩, secondary := ⟨0x1A0, none, ∅⟩ }
    (((Machine.single {} none).withSecond high 5).board.onSecond (·.setLine 3 true)).2
  states _ := 100

/-- Two ports each of the first pair, of the second pair and of a countdown. -/
def stackedBus : PortBus (Handler ⊕ Countdown) :=
  let bus : PortBus (Handler ⊕ Countdown) := {}
  let bus := bus.registerAll [0x20, 0x21] (.inl (.first none))
  let bus := bus.registerAll [0x120, 0x121] (.inl (.second true))
  bus.registerAll [0x40, 0x41] (.inr .left)

/-- Resets in the reverse order. -/
theorem reset_in_any_order_stacked :
    let backwards := stackedBus.handlers.values.reverse
    stacked.board.first.level = true ∧ stacked.board.second.map (·.level) = some true ∧
      backwards ≠ stackedBus.handlers.values ∧
      SameDevices (resetEach backwards stacked) (stackedBus.reset stacked) ∧
      (resetEach backwards stacked).board.first.level = false ∧
      (resetEach backwards stacked).states .left = 25 := by
  intro backwards
  obtain ⟨q, second, wire⟩ : ∃ q, stacked.board.second = some q ∧ q.wire = some (.request 5) :=
    ⟨_, rfl, by decide +kernel⟩
  have mapped : stackedBus.Maps .first := ⟨0x20, .first none, by decide +kernel, rfl⟩
  obtain ⟨same, low, -⟩ :=
    reset_in_any_order stackedBus stacked second wire (List.reverse_perm _)
  exact ⟨by decide +kernel, by decide +kernel, by decide +kernel, same, (low mapped).2.2,
    by decide +kernel⟩

end Assembly

end PicCascade
