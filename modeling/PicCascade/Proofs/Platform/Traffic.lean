import PicCascade.Proofs.Pair.History
import PicCascade.Proofs.Platform.Ports

/-!
# Bus traffic to a pair

A bus is a byte-wide front end of a pair that is registered on it. Accesses of one byte reach the
pair as they are, whether or not the pair has a register at the port. Accesses of any other width do
not reach it. Operations that bypass the bus see the same pair.

The bus is compared with a pair on its own, which performs the same operations and, of the bus
traffic, only the accesses of one byte.

Results:
* `Fronts.step`: what one event does to the machine, in terms of the pair on its own.
* `bus_is_faithful`: along every sequence of events the machine holds the pair that the pair on its
  own has become, reads answer what it would answer, and each fault is reported once.
-/

namespace PicCascade

/-- What can happen to a machine with one pair. -/
inductive Event where
  | read (port : UInt16) (size : UInt8)
  | write (port : UInt16) (size : UInt8) (value : UInt32)
  /-- An operation on the pair that bypasses the bus. -/
  | direct (op : Pair.Operation Probe)
  /-- The platform empties the fault latch. -/
  | takeFault

/-! ## A pair on its own -/

namespace Event

/-- What a pair on its own has to perform. -/
def operations : Event → List (Pair.Operation Probe)
  | .read port size => if size = 1 then [.readPort port] else []
  | .write port size value => if size = 1 then [.writePort port value.toUInt8] else []
  | .direct op => [op]
  | .takeFault => []

/-- The fault of a write of one byte, and the pair that the write leaves. -/
def rejection? (p : Pair Probe) : Event → Option (Fault × Pair Probe)
  | .write port size value =>
    if size = 1 then
      let o := p.writePort port value.toUInt8
      o.answer.map (·, o.pair)
    else none
  | _ => none

end Event

namespace Pair

/-- A pair on its own, after some events. -/
def after (p : Pair Probe) (events : List Event) : Pair Probe :=
  (p.performAll (events.flatMap Event.operations)).pair

/-- The faults of a sequence of events, in order, each with the pair that the write left. -/
def rejections (p : Pair Probe) : List Event → List (Fault × Pair Probe)
  | [] => []
  | e :: events => (e.rejection? p).toList ++ rejections (p.after [e]) events

theorem after_cons (p : Pair Probe) (e : Event) (events : List Event) :
    p.after (e :: events) = (p.after [e]).after events := by
  simp only [after, List.flatMap_cons, List.flatMap_nil, List.append_nil, pair_performAll_append]

/-- An event without operations leaves the pair alone. -/
theorem after_idle {p : Pair Probe} {e : Event} (idle : e.operations = []) : p.after [e] = p := by
  simp [after, idle, performAll]

end Pair

/-! ## Where faults are reported -/

namespace FaultRoute

variable {route : FaultRoute} {p : Pair Probe} {e : Event}

/-- The latch after an event. -/
def latched (route : FaultRoute) (p : Pair Probe) (latch : FaultLatch) : Event → FaultLatch
  | .takeFault => {}
  | e =>
    match route with
    | .latch => (e.rejection? p).elim latch (latch.report ·.1)
    | .journal => latch

/-- The journal after an event. -/
def journaled (route : FaultRoute) (p : Pair Probe) (journal : List (Fault × Pair Probe))
    (e : Event) : List (Fault × Pair Probe) :=
  match route with
  | .latch => journal
  | .journal => journal ++ (e.rejection? p).toList

theorem journaled_of_quiet {journal : List (Fault × Pair Probe)} (quiet : e.rejection? p = none) :
    route.journaled p journal e = journal := by
  cases route with
  | latch => rfl
  | journal => simp [journaled, quiet]

theorem latched_of_quiet {latch : FaultLatch} (quiet : e.rejection? p = none)
    (kept : e ≠ .takeFault) : route.latched p latch e = latch := by
  cases e with
  | takeFault => exact absurd rfl kept
  | read | write | direct =>
    cases route with
    | latch => simp [latched, quiet]
    | journal => rfl

end FaultRoute

/-! ## The machine -/

namespace Board

/-- Delivering levels to probes changes the probes only. -/
theorem driveProbes_eq (b : Board) (driven : List (Probe × Bool)) :
    ∃ recorded cell, b.driveProbes driven = { b with recorded, cell } := by
  induction driven generalizing b with
  | nil => exact ⟨b.recorded, b.cell, rfl⟩
  | cons d driven ih =>
    obtain ⟨probe, level⟩ := d
    obtain ⟨recorded, cell, eq⟩ := ih (b.driveProbe probe level)
    refine ⟨recorded, cell, eq.trans ?_⟩
    cases probe with
    | recorder => rfl
    | cell => rfl

/-- An operation on the first pair changes the pair and the probes only. -/
theorem onFirst_eq {α : Type} (b : Board) (op : Pair Probe → Outcome Probe α) :
    ∃ recorded cell, b.onFirst op =
      ((op b.first).answer, { b with first := (op b.first).pair, recorded, cell }) := by
  obtain ⟨recorded, cell, eq⟩ :=
    driveProbes_eq { b with first := (op b.first).pair } (op b.first).driven
  exact ⟨recorded, cell, Prod.ext rfl eq⟩

/-- Reports a fault, if there is one. -/
def note (b : Board) (route : FaultRoute) (fault? : Option Fault) : Board :=
  fault?.elim b (b.report · route)

@[simp]
theorem first_note (b : Board) (route : FaultRoute) (fault? : Option Fault) :
    (b.note route fault?).first = b.first := by
  cases fault? with
  | none => rfl
  | some fault => cases route <;> rfl

theorem journal_note (b : Board) (route : FaultRoute) (fault? : Option Fault) :
    (b.note route fault?).journal =
      match route with
      | .latch => b.journal
      | .journal => b.journal ++ (fault?.map (·, b.first)).toList := by
  cases fault? with
  | none => cases route <;> simp [note]
  | some fault => cases route <;> rfl

theorem faults_note (b : Board) (route : FaultRoute) (fault? : Option Fault) :
    (b.note route fault?).faults =
      match route with
      | .latch => fault?.elim b.faults b.faults.report
      | .journal => b.faults := by
  cases fault? with
  | none => cases route <;> rfl
  | some fault => cases route <;> rfl

theorem writePort_first_eq (b : Board) (port : UInt16) (value : UInt32) (route : FaultRoute) :
    ∃ recorded cell, b.writePort port 1 value (.first (some route)) =
      note { b with first := (b.first.writePort port value.toUInt8).pair, recorded, cell } route
        (b.first.writePort port value.toUInt8).answer := by
  obtain ⟨recorded, cell, eq⟩ := b.onFirst_eq (·.writePort port value.toUInt8)
  refine ⟨recorded, cell, ?_⟩
  simp only [writePort, if_true, eq]
  cases (b.first.writePort port value.toUInt8).answer with
  | none => rfl
  | some fault => rfl

end Board

namespace Machine

/-- What an event does to a machine. -/
def step (m : Machine) : Event → Machine
  | .read port size => (m.read port size).2
  | .write port size value => m.write port size value
  | .direct op => { m with board := (m.board.perform .first op).2 }
  | .takeFault => { m with board := m.board.takeFault.2 }

/-- A machine after some events. -/
def run (m : Machine) (events : List Event) : Machine := events.foldl step m

/-- The machine holds the pair, settled, and the bus passes accesses to the ports of the pair on to
it. -/
structure Fronts (route : FaultRoute) (p : Pair Probe) (m : Machine) : Prop where
  first : m.board.first = p
  handler : ∀ port, m.bus.at? port =
    if port ∈ p.config.ports then some (.first (some route)) else none
  settled : p.Settled

variable {m : Machine} {p : Pair Probe} {route : FaultRoute} {config : Config}

theorem fronts_single :
    Fronts route ((Pair.new config).connect (some .recorder)).pair (single config (some route)) where
  first := rfl
  handler := at?_single config (some route)
  settled := ⟨rfl, rfl⟩

namespace Fronts

/-! ## Single accesses -/

/-- A read of one byte is a read of the pair. -/
theorem read_one (h : Fronts route p m) (port : UInt16) :
    ∃ recorded cell, m.read port 1 =
      ((p.readPort port).answer.toUInt32,
        { m with board := { m.board with first := (p.readPort port).pair, recorded, cell } }) := by
  obtain ⟨rfl, handler, -⟩ := h
  by_cases listed : port ∈ m.board.first.config.ports
  · obtain ⟨recorded, cell, eq⟩ := m.board.onFirst_eq (·.readPort port)
    refine ⟨recorded, cell, ?_⟩
    have answers : m.bus.at? port = some (.first (some route)) := by rw [handler, if_pos listed]
    simp [read, PortBus.read, PortBus.isAccessSize, answers, PortDevice.read, Board.readPort, eq]
  · refine ⟨m.board.recorded, m.board.cell, ?_⟩
    have floats : m.bus.at? port = none := by rw [handler, if_neg listed]
    simp [read, PortBus.read, PortBus.isAccessSize, floats, openBus, Pair.readPort_of_unlisted listed]

/-- A write of one byte is a write to the pair, and its fault is reported afterwards. -/
theorem write_one (h : Fronts route p m) (port : UInt16) (value : UInt32) :
    ∃ recorded cell, (m.write port 1 value).bus = m.bus ∧ (m.write port 1 value).board =
      Board.note { m.board with first := (p.writePort port value.toUInt8).pair, recorded, cell }
        route (p.writePort port value.toUInt8).answer := by
  obtain ⟨rfl, handler, -⟩ := h
  by_cases listed : port ∈ m.board.first.config.ports
  · obtain ⟨recorded, cell, eq⟩ := m.board.writePort_first_eq port value route
    refine ⟨recorded, cell, rfl, ?_⟩
    have answers : m.bus.at? port = some (.first (some route)) := by rw [handler, if_pos listed]
    simp [write, PortBus.write, PortBus.isAccessSize, answers, PortDevice.write, eq]
  · refine ⟨m.board.recorded, m.board.cell, rfl, ?_⟩
    have floats : m.bus.at? port = none := by rw [handler, if_neg listed]
    simp [write, PortBus.write, PortBus.isAccessSize, floats, Board.note,
      Pair.writePort_of_unlisted listed]

/-- A read of another width reaches nothing. -/
theorem read_other (h : Fronts route p m) (port : UInt16) {size : UInt8} (other : size ≠ 1) :
    m.read port size = (if size = 0 then 0 else if size = 2 then 0xFFFF else 0xFFFFFFFF, m) := by
  have floating : openBus size = if size = 2 then 0xFFFF else 0xFFFFFFFF := by
    simp [openBus, other]
  by_cases empty : size = 0
  · simp [read, PortBus.read, empty]
  · by_cases access : PortBus.isAccessSize size = true
    · rw [read, PortBus.read, if_neg empty, if_pos access, if_neg empty, h.handler, ← floating]
      by_cases listed : port ∈ p.config.ports
      · simp [listed, PortDevice.read, Board.readPort, other]
      · simp [listed]
    · have wide : size ≠ 2 := fun eq => access (by simp [eq, PortBus.isAccessSize])
      simp [read, PortBus.read, empty, access, wide]

/-- A write of another width reaches nothing. -/
theorem write_other (h : Fronts route p m) (port : UInt16) {size : UInt8} (value : UInt32)
    (other : size ≠ 1) : m.write port size value = m := by
  rw [write, PortBus.write, h.handler]
  by_cases listed : port ∈ p.config.ports
  · simp [listed, PortDevice.write, Board.writePort, other]
  · simp [listed]

/-! ## Single events -/

/-- A machine on the same bus that holds the pair after an operation. -/
theorem of_perform (h : Fronts route p m) {m' : Machine} (op : Pair.Operation Probe)
    (bus : m'.bus = m.bus) (first : m'.board.first = (p.perform op).pair) :
    Fronts route (p.perform op).pair m' where
  first := first
  handler port := by
    rw [bus, h.handler, Pair.config_perform h.settled]
  settled := Pair.settled_perform h.settled op

/-- One event keeps the machine in step with the pair on its own, and a fault goes to where faults
are reported. -/
theorem step (h : Fronts route p m) (e : Event) :
    Fronts route (p.after [e]) (m.step e) ∧
      (m.step e).board.journal = route.journaled p m.board.journal e ∧
      (m.step e).board.faults = route.latched p m.board.faults e := by
  cases e with
  | read port size =>
    rw [FaultRoute.journaled_of_quiet rfl,
      FaultRoute.latched_of_quiet (e := .read port size) rfl nofun]
    by_cases one : size = 1
    · subst one
      obtain ⟨recorded, cell, eq⟩ := h.read_one port
      rw [Machine.step, eq]
      exact ⟨h.of_perform (.readPort port) rfl rfl, rfl, rfl⟩
    · have idle : (Event.read port size).operations = [] := if_neg one
      rw [Machine.step, h.read_other port one, Pair.after_idle idle]
      exact ⟨h, rfl, rfl⟩
  | write port size value =>
    by_cases one : size = 1
    · subst one
      obtain ⟨recorded, cell, bus, eq⟩ := h.write_one port value
      have rejected : (Event.write port 1 value).rejection? p =
          (p.writePort port value.toUInt8).answer.map (·, (p.writePort port value.toUInt8).pair) :=
        rfl
      refine ⟨h.of_perform (.writePort port value.toUInt8) bus ?_, ?_, ?_⟩
      · rw [Machine.step, eq, Board.first_note]
        rfl
      · rw [Machine.step, eq, Board.journal_note]
        cases route with
        | latch => rfl
        | journal => simp [FaultRoute.journaled, rejected]
      · rw [Machine.step, eq, Board.faults_note]
        cases route with
        | latch => simp [FaultRoute.latched, rejected, Option.elim_map, Function.comp_def]
        | journal => rfl
    · have quiet : (Event.write port size value).rejection? p = none := if_neg one
      have idle : (Event.write port size value).operations = [] := if_neg one
      rw [FaultRoute.journaled_of_quiet quiet, FaultRoute.latched_of_quiet quiet nofun,
        Machine.step, h.write_other port value one, Pair.after_idle idle]
      exact ⟨h, rfl, rfl⟩
  | direct op =>
    rw [FaultRoute.journaled_of_quiet rfl, FaultRoute.latched_of_quiet (e := .direct op) rfl nofun]
    obtain ⟨recorded, cell, eq⟩ := m.board.onFirst_eq (·.perform op)
    rw [Machine.step, Board.perform, eq]
    refine ⟨h.of_perform op rfl ?_, rfl, rfl⟩
    rw [← h.first]
  | takeFault =>
    rw [FaultRoute.journaled_of_quiet rfl, Pair.after_idle rfl]
    exact ⟨⟨h.first, h.handler, h.settled⟩, rfl, rfl⟩

/-! ## Whole runs -/

/-- The machine stays in step with the pair on its own. -/
theorem run (h : Fronts route p m) (events : List Event) :
    Fronts route (p.after events) (m.run events) := by
  induction events generalizing p m with
  | nil => exact h
  | cons e events ih =>
    rw [Pair.after_cons]
    exact ih (h.step e).1

/-- The journal gets all faults. -/
theorem journal_run (h : Fronts .journal p m) (events : List Event) :
    (m.run events).board.journal = m.board.journal ++ p.rejections events := by
  induction events generalizing p m with
  | nil => exact (List.append_nil _).symm
  | cons e events ih =>
    obtain ⟨next, journal, -⟩ := h.step e
    have rest := ih next
    rw [journal, FaultRoute.journaled, List.append_assoc] at rest
    exact rest

/-- As long as it is not emptied, the latch keeps the fault it has, or gets the first one. -/
theorem fault_run (h : Fronts .latch p m) {events : List Event} (kept : .takeFault ∉ events) :
    (m.run events).board.faults.fault =
      (m.board.faults.fault <|> (p.rejections events).head?.map Prod.fst) := by
  induction events generalizing p m with
  | nil => simp [Machine.run, Pair.rejections]
  | cons e events ih =>
    obtain ⟨next, -, faults⟩ := h.step e
    have other : e ≠ .takeFault := fun eq => kept (eq ▸ List.mem_cons_self)
    have rest := ih next fun later => kept (List.mem_cons_of_mem e later)
    have noted : (m.step e).board.faults.fault =
        (m.board.faults.fault <|> (e.rejection? p).map Prod.fst) := by
      rw [faults]
      cases rejected : e.rejection? p with
      | none => simp [FaultRoute.latched_of_quiet rejected other]
      | some call =>
        cases e with
        | takeFault => exact absurd rfl other
        | read | write | direct => simp [FaultRoute.latched, rejected, FaultLatch.report]
    have run : m.run (e :: events) = (m.step e).run events := rfl
    rw [run, rest, noted, Pair.rejections]
    cases m.board.faults.fault with
    | some fault => rfl
    | none => cases e.rejection? p <;> simp

end Fronts

theorem run_append (m : Machine) (before after : List Event) :
    m.run (before ++ after) = (m.run before).run after :=
  List.foldl_append

/-- The latch is empty at the start and whenever it has just been emptied. -/
theorem fault_run_of_emptied (start : m.board.faults.fault = none) {events : List Event}
    (emptied : events = [] ∨ events.getLast? = some .takeFault) :
    (m.run events).board.faults.fault = none := by
  rcases emptied with rfl | last
  · exact start
  · obtain ⟨earlier, rfl⟩ := List.getLast?_eq_some_iff.mp last
    rw [run_append]
    rfl

end Machine

/-- A pair as after power-on, with its output connected to the recorder. -/
def Pair.connected (config : Config) : Pair Probe :=
  ((Pair.new config).connect (some .recorder)).pair

/-- The bus is a faithful byte-wide front end of a pair, whatever the wiring. After every sequence of
events on a machine with one pair:
* the machine holds the pair that a pair on its own has become;
* a read of one byte, at any port, answers what the pair on its own would answer;
* accesses of other widths change nothing, and reads of no, two or any other number of bytes answer
  zero, two bytes of ones and four bytes of ones;
* an operation that bypasses the bus answers as on the pair on its own;
* every write of one byte that the pair on its own rejects has been reported once, in order, with the
  fault and with the pair as the write left it;
* a fault latch holds the first fault reported since it was last emptied. -/
theorem bus_is_faithful (config : Config) (route : FaultRoute) (events : List Event) :
    let m := (Machine.single config (some route)).run events
    let p := (Pair.connected config).after events
    m.board.first = p ∧
      (∀ port, (m.read port 1).1 = (p.readPort port).answer.toUInt32) ∧
      (∀ port size, size ≠ 1 → m.read port size =
        (if size = 0 then 0 else if size = 2 then 0xFFFF else 0xFFFFFFFF, m)) ∧
      (∀ port size value, size ≠ 1 → m.write port size value = m) ∧
      (∀ op, (m.board.perform .first op).1 = some (p.perform op).answer) ∧
      (route = .journal → m.board.journal = (Pair.connected config).rejections events) ∧
      (route = .latch → ∀ before later, events = before ++ later →
        (before = [] ∨ before.getLast? = some .takeFault) → .takeFault ∉ later →
        m.board.faults.fault =
          (((Pair.connected config).after before).rejections later).head?.map Prod.fst) := by
  intro m p
  have start : Machine.Fronts route (Pair.connected config) (Machine.single config (some route)) :=
    Machine.fronts_single
  have fronts : Machine.Fronts route p m := start.run events
  refine ⟨fronts.first, ?_, ?_, ?_, ?_, ?_, ?_⟩
  · intro port
    obtain ⟨recorded, cell, eq⟩ := fronts.read_one port
    rw [eq]
  · exact fun port size => fronts.read_other port
  · exact fun port size value => fronts.write_other port value
  · intro op
    rw [← fronts.first]
    rfl
  · rintro rfl
    exact start.journal_run events
  · rintro rfl before later rfl emptied kept
    have reached := (start.run before).fault_run kept
    rw [← Machine.run_append, Machine.fault_run_of_emptied rfl emptied] at reached
    exact reached

end PicCascade
