import Mathlib.Data.List.Nodup
import Mathlib.Data.List.Perm.Subperm
import Mathlib.Data.Option.Basic
import PicCascade.Config

/-!
# The port layout

The ports of a pair are described twice. Decoding takes a port and looks how far it is from the base
of each window; the list of ports counts up from the bases. Both can be read off one table of ports and
their registers: decoding looks a port up in it, and the list is its column of ports. So they agree
however the windows lie. Windows may overlap, and they may run past the last port and go on at port 0.

Results:
* `decode?_eq_lookup`: decoding looks a port up in the layout.
* `decode?_eq_getElem?_idxOf`: a port has the register of its first place among the ports.
* `decode?_eq_none_iff`: a port has no register iff it is not listed.
* `eq_of_decode?`: no register is at two ports.
* `nodup_ports_iff_map_decode?`, `nodup_ports_iff_existsUnique`: no port is listed twice iff each port
  decodes to the register in its place, and iff each register is at one port.
* `decoding_exact`: all of this for every configuration.
-/

namespace PicCascade

/-! ## Tables -/

section Table

variable {α β : Type} [DecidableEq α]

theorem lookup_cons_eq_ite (key first : α) (value : β) (rest : List (α × β)) :
    ((first, value) :: rest).lookup key = if key = first then some value else rest.lookup key := by
  rw [List.lookup_cons]
  by_cases here : key = first
  · rw [if_pos here, beq_iff_eq.mpr here]
  · rw [if_neg here, beq_eq_false_iff_ne.mpr here]

/-- A table has for a key what stands in the first place of the key. -/
theorem lookup_eq_getElem?_idxOf (table : List (α × β)) (key : α) :
    table.lookup key = (table.map Prod.snd)[(table.map Prod.fst).idxOf key]? := by
  induction table with
  | nil => rfl
  | cons entry rest ih =>
    obtain ⟨first, value⟩ := entry
    rw [lookup_cons_eq_ite, List.map_cons, List.map_cons]
    by_cases here : key = first
    · rw [if_pos here, List.idxOf_cons_eq _ here.symm, List.getElem?_cons_zero]
    · rw [if_neg here, List.idxOf_cons_ne _ (Ne.symm here), List.getElem?_cons_succ, ih]

end Table

namespace Config

variable {c : Config} {port port' : UInt16} {position : Position} {register : Register}

/-! ## The layout -/

/-- The window of a chip: its two ports with their registers. -/
def window (c : Config) (position : Position) : List (UInt16 × Register) :=
  [((c.chip position).base, .command position), ((c.chip position).base + 1, .data position)]

/-- The port of the trigger modes of a chip with their register, if they have a port. -/
def triggerModes (c : Config) (position : Position) : List (UInt16 × Register) :=
  (c.chip position).elcrPort.toList.map (·, .elcr position)

/-- All ports with their registers, in the order of precedence. -/
def layout (c : Config) : List (UInt16 × Register) :=
  c.window .primary ++ c.window .secondary ++ c.triggerModes .primary ++ c.triggerModes .secondary

/-- All registers that have a port, in the order of precedence. -/
def registers (c : Config) : List Register :=
  [.command .primary, .data .primary, .command .secondary, .data .secondary]
    ++ (if c.primary.elcrPort.isSome then [.elcr .primary] else [])
    ++ (if c.secondary.elcrPort.isSome then [.elcr .secondary] else [])

theorem map_fst_layout : c.layout.map Prod.fst = c.ports := by
  have column (position : Position) :
      (c.triggerModes position).map Prod.fst = (c.chip position).elcrPort.toList := by
    rw [triggerModes, List.map_map]
    exact List.map_id _
  simp only [layout, List.map_append, column]
  rfl

theorem map_snd_layout : c.layout.map Prod.snd = c.registers := by
  have column (position : Position) : (c.triggerModes position).map Prod.snd =
      if (c.chip position).elcrPort.isSome then [.elcr position] else [] := by
    rw [triggerModes]
    cases (c.chip position).elcrPort with
    | none => rfl
    | some port => rfl
  simp only [layout, List.map_append, column]
  rfl

theorem length_registers : c.registers.length = c.ports.length := by
  rw [← map_snd_layout, ← map_fst_layout, List.length_map, List.length_map]

theorem nodup_registers : c.registers.Nodup := by
  rw [registers]
  cases c.primary.elcrPort.isSome <;> cases c.secondary.elcrPort.isSome <;> decide

/-! ## Decoding -/

theorem inWindow?_eq_lookup : c.inWindow? port position = (c.window position).lookup port := by
  -- Distances and sums wrap around alike, so the base may be the last port.
  have command : port - (c.chip position).base = 0 ↔ port = (c.chip position).base := by grind
  have data : port - (c.chip position).base = 1 ↔ port = (c.chip position).base + 1 := by grind
  simp only [inWindow?, window, command, data, lookup_cons_eq_ite, List.lookup_nil]

theorem atElcr?_eq_lookup : c.atElcr? port position = (c.triggerModes position).lookup port := by
  rw [atElcr?, triggerModes]
  cases (c.chip position).elcrPort with
  | none => rfl
  | some own =>
    simp only [Option.toList_some, List.map_cons, List.map_nil, lookup_cons_eq_ite, List.lookup_nil,
      Option.some.injEq, eq_comm]

theorem decode?_eq_lookup : c.decode? port = c.layout.lookup port := by
  simp only [decode?, layout, List.lookup_append, inWindow?_eq_lookup, atElcr?_eq_lookup,
    Option.orElse_eq_orElse, Option.orElse_eq_or, Option.or_assoc]

/-- A port has the register of its first place among the ports. -/
theorem decode?_eq_getElem?_idxOf : c.decode? port = c.registers[c.ports.idxOf port]? := by
  rw [decode?_eq_lookup, lookup_eq_getElem?_idxOf, map_fst_layout, map_snd_layout]

/-- A port has no register iff it is not listed. -/
theorem decode?_eq_none_iff : c.decode? port = none ↔ port ∉ c.ports := by
  rw [decode?_eq_getElem?_idxOf, List.getElem?_eq_none_iff, length_registers, ← Nat.not_lt,
    List.idxOf_lt_length_iff]

theorem isSome_decode?_iff : (c.decode? port).isSome ↔ port ∈ c.ports := by
  rw [Option.isSome_iff_ne_none, ne_eq, decode?_eq_none_iff, not_not]

/-- The first port of all has the first register, whatever else is there. -/
theorem decode?_base (c : Config) : c.decode? c.primary.base = some (.command .primary) := by
  rw [decode?_eq_lookup]
  exact List.lookup_cons_self

/-- No register is at two ports. -/
theorem eq_of_decode? (at_port : c.decode? port = some register)
    (at_port' : c.decode? port' = some register) : port = port' := by
  have listed : port ∈ c.ports := isSome_decode?_iff.mp (by simp [at_port])
  have within : c.ports.idxOf port < c.registers.length :=
    length_registers ▸ List.idxOf_lt_length_iff.mpr listed
  rw [decode?_eq_getElem?_idxOf] at at_port at_port'
  have place : c.ports.idxOf port = c.ports.idxOf port' :=
    (List.getElem?_inj within nodup_registers).mp (at_port.trans at_port'.symm)
  exact (List.idxOf_inj listed).mp place

/-! ## Layouts without overlap -/

theorem map_decode?_ports (distinct : c.ports.Nodup) :
    c.ports.map c.decode? = c.registers.map some := by
  refine List.ext_getElem (by simp [length_registers]) fun i within within' => ?_
  have listed : i < c.ports.length := by simpa using within
  rw [List.getElem_map, List.getElem_map, decode?_eq_getElem?_idxOf, distinct.idxOf_getElem i listed,
    List.getElem?_eq_getElem]

/-- No port is listed twice iff each decodes to the register in its place. -/
theorem nodup_ports_iff_map_decode? :
    c.ports.Nodup ↔ c.ports.map c.decode? = c.registers.map some := by
  constructor
  · exact map_decode?_ports
  · intro inPlace
    have distinct : (c.ports.map c.decode?).Nodup :=
      inPlace ▸ nodup_registers.map (Option.some_injective Register)
    exact distinct.of_map

/-- No port is listed twice iff each register is at one port. -/
theorem nodup_ports_iff_existsUnique :
    c.ports.Nodup ↔ ∀ register ∈ c.registers, ∃! port, c.decode? port = some register := by
  constructor
  · intro distinct register mem
    have decoded : some register ∈ c.ports.map c.decode? :=
      map_decode?_ports distinct ▸ List.mem_map_of_mem mem
    obtain ⟨port, -, at_port⟩ := List.mem_map.mp decoded
    exact ⟨port, at_port, fun other at_other => eq_of_decode? at_other at_port⟩
  · intro reached
    -- There are no more ports than registers, so if none of these is missed, none comes twice.
    have all : c.registers.map some ⊆ c.ports.map c.decode? := by
      intro decoded mem
      obtain ⟨register, has, rfl⟩ := List.mem_map.mp mem
      obtain ⟨port, at_port, -⟩ := reached register has
      have listed : port ∈ c.ports := isSome_decode?_iff.mp (by simp [at_port])
      exact List.mem_map.mpr ⟨port, listed, at_port⟩
    have distinct : (c.registers.map some).Nodup :=
      nodup_registers.map (Option.some_injective Register)
    have perm : (c.registers.map some).Perm (c.ports.map c.decode?) :=
      (distinct.subperm all).perm_of_length_le (by simp [length_registers])
    exact (perm.nodup_iff.mp distinct).of_map

/-- Decoding and the list of ports agree. Exactly the listed ports have a register, and it is the one
of the earliest place at which the port is listed. If no port is listed twice, then the ports decode to
the registers in order and each register is at one port; and if one is listed twice, neither holds. -/
theorem decoding_exact (c : Config) :
    (∀ port, (c.decode? port).isSome ↔ port ∈ c.ports) ∧
    (∀ port, c.decode? port = c.registers[c.ports.idxOf port]?) ∧
    (c.ports.Nodup ↔ c.ports.map c.decode? = c.registers.map some) ∧
    (c.ports.Nodup ↔ ∀ register ∈ c.registers, ∃! port, c.decode? port = some register) :=
  ⟨fun _ => isSome_decode?_iff, fun _ => decode?_eq_getElem?_idxOf, nodup_ports_iff_map_decode?,
    nodup_ports_iff_existsUnique⟩

/-- The window of the primary runs past the last port, and its trigger modes have no port. -/
def wrapped : Config := { primary := ⟨0xffff, none, .ofByte 0xF8⟩ }

/-- The secondary begins at the data port of the primary, and its trigger modes are at its own. -/
def overlapped : Config := { wrapped with secondary := ⟨0, some 1, .ofByte 0xDE⟩ }

theorem decoding_exact_wrapped :
    wrapped.ports.Nodup ∧
      wrapped.ports.map wrapped.decode? =
        [.command .primary, .data .primary, .command .secondary, .data .secondary,
          .elcr .secondary].map some ∧
      Register.elcr .secondary ∈ wrapped.registers ∧
      (∃! port, wrapped.decode? port = some (.elcr .secondary)) ∧
      overlapped.decode? 0 = some (.data .primary) ∧
      ¬ ∀ register ∈ overlapped.registers, ∃! port, overlapped.decode? port = some register := by
  obtain ⟨-, -, inOrder, reached⟩ := decoding_exact wrapped
  obtain ⟨-, earliest, -, reached'⟩ := decoding_exact overlapped
  have distinct : wrapped.ports.Nodup := by decide
  have listed : Register.elcr .secondary ∈ wrapped.registers := by decide
  have twice : ¬ overlapped.ports.Nodup := by decide
  exact ⟨distinct, inOrder.mp distinct, listed, reached.mp distinct _ listed, earliest 0,
    fun all => twice (reached'.mpr all)⟩

end Config

end PicCascade
