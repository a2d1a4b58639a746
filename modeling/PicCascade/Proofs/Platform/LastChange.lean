import Mathlib.Data.List.Induction
import Mathlib.Data.List.Nodup
import PicCascade.Platform.PortBus.Change
import PicCascade.Proofs.Platform.Ports

/-!
# The last change of a port

Who answers at a port is settled by the last change that covers the port. If this is a registration,
its handler answers, and otherwise none.

A range of ports may run past the last port and go on at port 0. It has fewer ports than there are, so
it meets none of them twice, and it covers those whose distance from its start is below its length.

Results:
* `mem_range_iff`: the ports of a range.
* `registerRange_eq`: how the handlers of a range are made.
* `at?_perform`: who answers after one change.
* `at?_eq_some_iff`: who answers after any history.
* `last_change_exact`: what an access reaches after any history, and what it does not depend on.
-/

namespace PicCascade.PortBus

variable {σ Handler World : Type} {bus : PortBus Handler} {start length port p : UInt16} {n : Nat}

/-! ## The ports of a range -/

theorem add_ofNat_eq_iff (within : n < UInt16.size) :
    start + UInt16.ofNat n = p ↔ (p - start).toNat = n := by
  constructor
  · rintro rfl
    rw [UInt16.add_comm, UInt16.add_sub_cancel]
    exact UInt16.toNat_ofNat_of_lt' within
  · rintro rfl
    rw [UInt16.ofNat_toNat]
    grind

theorem mem_range_iff : p ∈ range start length ↔ p - start < length := by
  have bound : length.toNat < UInt16.size := length.toNat_lt
  simp only [range, List.mem_map, List.mem_range]
  constructor
  · rintro ⟨offset, within, at_p⟩
    rw [UInt16.lt_iff_toNat_lt, (add_ofNat_eq_iff (Nat.lt_trans within bound)).mp at_p]
    exact within
  · intro within
    exact ⟨(p - start).toNat, UInt16.lt_iff_toNat_lt.mp within,
      (add_ofNat_eq_iff (p - start).toNat_lt).mpr rfl⟩

/-- A range meets no port twice. -/
theorem nodup_range : (range start length).Nodup := by
  have bound {offset : Nat} (within : offset ∈ List.range length.toNat) : offset < UInt16.size :=
    Nat.lt_trans (List.mem_range.mp within) length.toNat_lt
  refine (List.nodup_map_iff_inj_on List.nodup_range).mpr fun offset within offset' within' same => ?_
  have first := (add_ofNat_eq_iff (bound within)).mp same
  have second := (add_ofNat_eq_iff (bound within')).mp (Eq.refl (start + UInt16.ofNat offset'))
  exact first.symm.trans second

/-! ## Handlers for a range -/

section Making

variable {m : Type → Type} [Monad m] {make : UInt16 → m Handler} {made : Vector Handler n}

/-- Makes a handler for each of `n` ports, once each and in order. -/
def makeEach (make : UInt16 → m Handler) (start : UInt16) (n : Nat) : m (Vector Handler n) :=
  Vector.ofFnM fun i => make (start + UInt16.ofNat i)

/-- Makes one handler each answer at consecutive ports. -/
def registerEach (bus : PortBus Handler) (start : UInt16) (made : Vector Handler n) :
    PortBus Handler :=
  Fin.foldl n (fun bus i => bus.register (start + UInt16.ofNat i) (made.get i)) bus

theorem registerEach_push (handler : Handler) :
    bus.registerEach start (made.push handler) =
      (bus.registerEach start made).register (start + UInt16.ofNat n) handler := by
  have get {k : Nat} (made : Vector Handler k) (i : Fin k) : made.get i = made[i.val] := rfl
  simp [registerEach, Fin.foldl_succ_last, get, Vector.getElem_push]

theorem at?_registerEach (fits : n ≤ UInt16.size) :
    (bus.registerEach start made).at? p = made[(p - start).toNat]?.or (bus.at? p) := by
  induction n with
  | zero => simp [registerEach]
  | succ n ih =>
    obtain ⟨first, last, rfl⟩ : ∃ (first : Vector Handler n) (last : Handler),
        made = first.push last := Vector.exists_push
    rw [registerEach_push, at?_register, ih (Nat.le_of_succ_le fits), Vector.getElem?_push]
    simp only [add_ofNat_eq_iff (Nat.lt_of_succ_le fits)]
    split
    · rfl
    · rfl

theorem makeEach_succ [LawfulMonad m] :
    makeEach make start (n + 1) = do
      let made ← makeEach make start n
      let handler ← make (start + UInt16.ofNat n)
      return made.push handler :=
  Vector.ofFnM_succ

theorem registerRange_eq [LawfulMonad m] (bus : PortBus Handler) (start length : UInt16)
    (make : UInt16 → m Handler) :
    bus.registerRange start length make =
      bus.registerEach start <$> makeEach make start length.toNat := by
  rw [registerRange, range]
  generalize length.toNat = n
  -- The handler that is made last is also registered last, so the induction is from the end.
  induction n with
  | zero => simp [makeEach, registerEach]
  | succ n ih =>
    rw [List.range_succ, List.map_append, List.foldlM_append, ih, makeEach_succ]
    simp [registerEach_push]

end Making

theorem at?_unregisterRange :
    (bus.unregisterRange start length).at? p =
      if p - start < length then none else bus.at? p := by
  have each (ports : List UInt16) (bus : PortBus Handler) :
      (ports.foldl (fun bus port => (bus.unregister port).2) bus).at? p =
        if p ∈ ports then none else bus.at? p := by
    induction ports generalizing bus with
    | nil => simp
    | cons first rest ih =>
      rw [List.foldl_cons, ih, at?_unregister]
      by_cases later : p ∈ rest
      · simp [later]
      · simp [later, eq_comm]
  rw [unregisterRange, each]
  simp only [mem_range_iff]

/-! ## One change -/

namespace Change

/-- The change concerns a port. -/
def covers (p : UInt16) : Change σ Handler → Bool
  | .register port _ | .unregister port => port = p
  | .registerRange start length _ | .unregisterRange start length => p - start < length

/-- The handler that a change registers at a port, if it does. -/
def registers? (p : UInt16) (s : σ) : Change σ Handler → Option Handler
  | .register port handler => if port = p then some handler else none
  | .registerRange start length make =>
    ((makeEach make start length.toNat).run s).1[(p - start).toNat]?
  | .unregister _ | .unregisterRange .. => none

theorem covers_of_registers? {change : Change σ Handler} {s : σ} {handler : Handler}
    (registers : change.registers? p s = some handler) : change.covers p = true := by
  cases change with
  | register port first =>
    obtain ⟨at_p, -⟩ := Option.ite_none_right_eq_some.mp registers
    exact decide_eq_true at_p
  | registerRange start length make =>
    obtain ⟨within, -⟩ := Vector.getElem?_eq_some_iff.mp registers
    exact decide_eq_true within
  | unregister port | unregisterRange start length => cases registers

end Change

/-- A change of a port settles who answers there. At other ports nothing changes. -/
theorem at?_perform (bus : PortBus Handler) (change : Change σ Handler) (s : σ) (p : UInt16) :
    ((bus.perform change).run s).1.at? p =
      if change.covers p then change.registers? p s else bus.at? p := by
  cases change with
  | register port handler =>
    refine (at?_register bus port handler p).trans ?_
    by_cases own : port = p
    · simp [Change.covers, Change.registers?, own]
    · simp [Change.covers, own]
  | unregister port =>
    refine (at?_unregister bus port p).trans ?_
    simp [Change.covers, Change.registers?]
  | registerRange start length make =>
    have made : (bus.perform (.registerRange start length make)).run s =
        (bus.registerEach start ((makeEach make start length.toNat).run s).1,
          ((makeEach make start length.toNat).run s).2) :=
      congrArg (·.run s) (registerRange_eq bus start length make)
    rw [made, at?_registerEach (Nat.le_of_lt length.toNat_lt)]
    by_cases within : p - start < length
    · have within' : (p - start).toNat < length.toNat := within
      simp [Change.covers, Change.registers?, within, within']
    · have beyond : ¬ (p - start).toNat < length.toNat := within
      simp [Change.covers, within, beyond]
  | unregisterRange start length =>
    refine at?_unregisterRange.trans ?_
    simp [Change.covers, Change.registers?]

/-! ## Histories -/

theorem performAll_append (history : List (Change σ Handler)) (change : Change σ Handler) (s : σ) :
    (performAll bus (history ++ [change])).run s =
      let before := (performAll bus history).run s
      (before.1.perform change).run before.2 :=
  congrArg (fun x : StateM σ (PortBus Handler) => x.run s) List.foldlM_append

/-- The handler is registered at the port in the course of a history, and no later change covers the
port. -/
def LastAt (history : List (Change σ Handler)) (s : σ) (p : UInt16) (handler : Handler) : Prop :=
  ∃ before change after, history = before ++ change :: after ∧
    change.registers? p ((performAll {} before).run s).2 = some handler ∧
    ∀ later ∈ after, later.covers p = false

theorem not_lastAt_nil {s : σ} {handler : Handler} :
    ¬ LastAt ([] : List (Change σ Handler)) s p handler := by
  rintro ⟨before, change, after, eq, -⟩
  simp at eq

theorem lastAt_append {history : List (Change σ Handler)} {change : Change σ Handler} {s : σ}
    {handler : Handler} :
    LastAt (history ++ [change]) s p handler ↔
      if change.covers p then
        change.registers? p ((performAll {} history).run s).2 = some handler
      else LastAt history s p handler := by
  constructor
  · rintro ⟨before, earlier, after, eq, registers, others⟩
    -- The change at the end is the registration itself or one of those that do not cover the port.
    obtain rfl | ⟨after, last, rfl⟩ : after = [] ∨ ∃ front last, after = front ++ [last] := by
      simpa only [List.concat_eq_append] using List.eq_nil_or_concat after
    · obtain ⟨rfl, same⟩ := List.append_inj' eq rfl
      cases same
      rw [if_pos (Change.covers_of_registers? registers)]
      exact registers
    · have regrouped : history ++ [change] = (before ++ earlier :: after) ++ [last] :=
        eq.trans (by simp)
      obtain ⟨rfl, same⟩ := List.append_inj' regrouped rfl
      cases same
      have elsewhere : change.covers p = false := others change (by simp)
      rw [if_neg (by simp [elsewhere])]
      exact ⟨before, earlier, after, rfl, registers, fun later mem => others later (by simp [mem])⟩
  · split
    · intro registers
      exact ⟨history, change, [], rfl, registers, by simp⟩
    · rename_i elsewhere
      rintro ⟨before, earlier, after, rfl, registers, others⟩
      refine ⟨before, earlier, after ++ [change], by simp, registers, fun later mem => ?_⟩
      rcases List.mem_append.mp mem with mem | mem
      · exact others later mem
      · cases List.mem_singleton.mp mem
        simpa using elsewhere

/-- After any history, the handler that was last registered at a port answers there, unless it was
unregistered since. -/
theorem at?_eq_some_iff (history : List (Change σ Handler)) (s : σ) (p : UInt16)
    (handler : Handler) :
    ((performAll {} history).run s).1.at? p = some handler ↔ LastAt history s p handler := by
  induction history using List.reverseRecOn with
  | nil =>
    have unmapped : ((performAll {} ([] : List (Change σ Handler))).run s).1.at? p = none :=
      at?_empty p
    rw [unmapped]
    exact iff_of_false (by simp) not_lastAt_nil
  | append_singleton history change ih =>
    rw [performAll_append, at?_perform, lastAt_append]
    split
    · exact Iff.rfl
    · exact ih

/-! ## Accesses -/

section Access

variable [PortDevice Handler World]

theorem isAccessSize_of {size : UInt8} (access : size = 1 ∨ size = 2 ∨ size = 4) :
    isAccessSize size = true ∧ size ≠ 0 := by
  rcases access with rfl | rfl | rfl <;> decide

/-- What an access does depends on who answers at its port, and on nothing else of the bus. -/
theorem access_congr {bus bus' : PortBus Handler} (same : bus.at? p = bus'.at? p) :
    bus.isMapped p = bus'.isMapped p ∧ (bus.unregister p).1 = (bus'.unregister p).1 ∧
      ∀ (size : UInt8) (world : World), bus.read p size world = bus'.read p size world ∧
        ∀ value, bus.write p size value world = bus'.write p size value world := by
  simp only [isMapped, unregister, read, write, same, implies_true, and_self]

theorem access_of_some {handler : Handler} (answers : bus.at? p = some handler) {size : UInt8}
    (access : size = 1 ∨ size = 2 ∨ size = 4) (world : World) :
    bus.read p size world = PortDevice.read handler p size world ∧
      ∀ value, bus.write p size value world = PortDevice.write handler p size value world := by
  obtain ⟨valid, some⟩ := isAccessSize_of access
  simp only [read, write, answers, some, valid, if_true, if_false, implies_true, and_self]

theorem access_of_none (silent : bus.at? p = none) {size : UInt8}
    (access : size = 1 ∨ size = 2 ∨ size = 4) (world : World) :
    bus.read p size world = (openBus size, world) ∧
      ∀ value, bus.write p size value world = world := by
  obtain ⟨valid, some⟩ := isAccessSize_of access
  simp only [read, write, silent, some, valid, if_true, if_false, implies_true, and_self]

/-- After any history, an access at a port reaches the handler that was last registered there, unless
the port was unregistered since. Then the port floats. A change makes no difference to other ports. A
range covers the ports whose distance from its start is below its length, and its handlers are made in
this order, once each. -/
theorem last_change_exact (history : List (Change σ Handler)) (s : σ) :
    let bus := ((performAll {} history).run s).1
    (∀ p handler, LastAt history s p handler →
      bus.isMapped p = true ∧ (bus.unregister p).1 = some handler ∧
        ∀ size : UInt8, size = 1 ∨ size = 2 ∨ size = 4 → ∀ world : World,
          bus.read p size world = PortDevice.read handler p size world ∧
            ∀ value, bus.write p size value world =
              PortDevice.write handler p size value world) ∧
    (∀ p, (∀ handler, ¬ LastAt history s p handler) →
      bus.isMapped p = false ∧ (bus.unregister p).1 = none ∧
        ∀ size : UInt8, size = 1 ∨ size = 2 ∨ size = 4 → ∀ world : World,
          bus.read p size world = (openBus size, world) ∧
            ∀ value, bus.write p size value world = world) ∧
    (∀ (change : Change σ Handler) (now : σ) (p : UInt16), change.covers p = false →
      let changed := ((bus.perform change).run now).1
      changed.isMapped p = bus.isMapped p ∧ (changed.unregister p).1 = (bus.unregister p).1 ∧
        ∀ (size : UInt8) (world : World), changed.read p size world = bus.read p size world ∧
          ∀ value, changed.write p size value world = bus.write p size value world) ∧
    (∀ start length : UInt16, (range start length).Nodup ∧
      ∀ p, p ∈ range start length ↔
        (65536 - start.toNat + p.toNat) % 65536 < length.toNat) ∧
    ∀ {m : Type → Type} [Monad m] [LawfulMonad m] (start length : UInt16)
      (make : UInt16 → m Handler),
      bus.registerRange start length make =
        bus.registerEach start <$>
          Vector.ofFnM fun i : Fin length.toNat => make (start + UInt16.ofNat i) := by
  intro bus
  refine ⟨fun p handler last => ?_, fun p never => ?_, fun change now p elsewhere => ?_,
    fun start length => ⟨nodup_range, fun p => ?_⟩,
    fun start length make => registerRange_eq bus start length make⟩
  · have answers : bus.at? p = some handler := (at?_eq_some_iff history s p handler).mpr last
    exact ⟨congrArg Option.isSome answers, answers, fun size access => access_of_some answers access⟩
  · have silent : bus.at? p = none :=
      Option.eq_none_iff_forall_ne_some.mpr fun handler answers =>
        never handler ((at?_eq_some_iff history s p handler).mp answers)
    exact ⟨congrArg Option.isSome silent, silent, fun size access => access_of_none silent access⟩
  · refine access_congr ?_
    rw [at?_perform, if_neg (by simp [elsewhere])]
  · rw [mem_range_iff, UInt16.lt_iff_toNat_lt, UInt16.toNat_sub]

end Access

/-- A range runs past the last port, over a handler at port 0, and is unregistered in its middle. Its
handlers are numbered in the order in which they are made. -/
def pierced : List (Change (List UInt16) PicCascade.Handler) :=
  let make (port : UInt16) : StateM (List UInt16) PicCascade.Handler := do
    modify (· ++ [port])
    return .scratch (← get).length true
  [.register 0 (.first none), .registerRange 0xfffe 4 make, .unregisterRange 0xffff 2,
    .register 0xffff (.second true)]

theorem last_change_exact_pierced :
    let bus := ((performAll {} pierced).run []).1
    (∀ world, bus.read 1 4 world = PortDevice.read (PicCascade.Handler.scratch 4 true) 1 4 world) ∧
      (∀ world, bus.read 0xffff 1 world =
        PortDevice.read (PicCascade.Handler.second true) 0xffff 1 world) ∧
      (∀ world, bus.read 0 2 world = (0xffff, world)) ∧
      ((performAll {} pierced).run []).2 = [0xfffe, 0xffff, 0, 1] := by
  obtain ⟨reached, floating, -⟩ := last_change_exact pierced []
  have numbered : LastAt pierced [] 1 (.scratch 4 true) :=
    (at?_eq_some_iff ..).mp (by decide +kernel)
  have pair : LastAt pierced [] 0xffff (.second true) := (at?_eq_some_iff ..).mp (by decide +kernel)
  have unregistered : ∀ handler, ¬ LastAt pierced [] 0 handler := fun handler last => by
    have silent : ((performAll {} pierced).run []).1.at? 0 = none := by decide +kernel
    cases silent.symm.trans ((at?_eq_some_iff ..).mpr last)
  refine ⟨fun world => ?_, fun world => ?_, fun world => ?_, by decide +kernel⟩
  · exact ((reached 1 _ numbered).2.2 4 (by decide) world).1
  · exact ((reached 0xffff _ pair).2.2 1 (by decide) world).1
  · exact ((floating 0 unregistered).2.2 2 (by decide) world).1

end PicCascade.PortBus
