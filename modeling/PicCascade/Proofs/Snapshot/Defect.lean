import PicCascade.Proofs.Snapshot.Container

/-!
# What the container parser refuses

The parts of a snapshot are read in order, and the first one that is wrong decides the error. A part
is wrong if the input ends within it, or if it is complete and its value is not allowed. The two
numbers of a version are one part: a major number is looked at once the minor one has been read.

Results:
* `Header.fails_read`: a header is refused for its first defect.
* `Field.fails_read`: a field is refused iff the input ends within it.
* `Container.readFields_append`: fields that were read only matter to what follows by their tags.
* `Container.readFields_eq_error`: a sequence of fields is refused for the first defect behind the
  fields that were read.
-/

namespace PicCascade.Snapshot

variable {input : List UInt8} {e : Error}

/-! ## The header -/

theorem Version.fails_read :
    Version.read.Fails input e ↔ input.length < 4 ∧ e = .unexpectedEnd := by
  simp only [Version.read, Reader.fails_bind, Reader.fails_u16, Reader.run_u16_eq_ok,
    Reader.not_fails_pure, and_false, exists_false, or_false]
  constructor
  · rintro (⟨short, rfl⟩ | ⟨major, rest, rfl, short, rfl⟩)
    · exact ⟨by omega, rfl⟩
    · refine ⟨?_, rfl⟩
      rw [List.length_append, LittleEndian.length_ofNat]
      omega
  · rintro ⟨short, rfl⟩
    cases h : Reader.u16.run input with
    | error e' rest => exact .inl ⟨(Reader.fails_u16.mp ⟨rest, h⟩).1, rfl⟩
    | ok major rest =>
      obtain rfl := Reader.run_u16_eq_ok.mp h
      refine .inr ⟨major, rest, rfl, ?_, rfl⟩
      rw [List.length_append, LittleEndian.length_ofNat] at short
      omega

theorem DeviceId.fails_read :
    DeviceId.read.Fails input e ↔ input.length < 4 ∧ e = .unexpectedEnd := by
  simp only [DeviceId.read, Reader.fails_bind, Reader.fails_take, Reader.not_fails_pure, and_false,
    exists_false, or_false]

/-- The first defect of a header and the error that reports it. The parts before the defect are as
they should be. -/
inductive Header.Defect (expected : DeviceId) : List UInt8 → Error → Prop
  | magicCut {input : List UInt8} (short : input.length < 4) :
      Defect expected input .unexpectedEnd
  | magic {word rest : List UInt8} (length : word.length = 4) (wrong : word ≠ magic) :
      Defect expected (word ++ rest) .invalidMagic
  | formatCut {rest : List UInt8} (short : rest.length < 4) :
      Defect expected (Snapshot.magic ++ rest) .unexpectedEnd
  | format {found : Version} {rest : List UInt8} (wrong : found.major ≠ 1) :
      Defect expected (Snapshot.magic ++ found.toBytes ++ rest) (.unsupportedFormat found)
  | deviceCut {format : Version} {rest : List UInt8} (supported : format.major = 1)
      (short : rest.length < 4) :
      Defect expected (Snapshot.magic ++ format.toBytes ++ rest) .unexpectedEnd
  | device {format : Version} {found : DeviceId} {rest : List UInt8}
      (supported : format.major = 1) (wrong : found ≠ expected) :
      Defect expected (Snapshot.magic ++ format.toBytes ++ found.bytes ++ rest)
        (.deviceMismatch expected found)
  | versionCut {format : Version} {rest : List UInt8} (supported : format.major = 1)
      (short : rest.length < 4) :
      Defect expected (Snapshot.magic ++ format.toBytes ++ expected.bytes ++ rest) .unexpectedEnd

/-- A header is refused for its first defect. -/
theorem Header.fails_read {expected : DeviceId} :
    (Header.read expected).Fails input e ↔ Header.Defect expected input e := by
  simp only [Header.read, Reader.fails_bind, Reader.fails_take, Reader.fails_require,
    Version.fails_read, DeviceId.fails_read, Reader.not_fails_pure, Reader.run_take_eq_ok,
    Reader.run_require_eq_ok, Version.run_read_eq_ok, DeviceId.run_read_eq_ok, and_false,
    exists_false, or_false]
  constructor
  · rintro (⟨short, rfl⟩ | ⟨word, rest, rfl, ⟨wrong, rfl⟩ | ⟨-, _, ⟨hword, rfl⟩, h⟩⟩)
    · exact .magicCut short
    · exact .magic word.property wrong
    rw [hword]
    rcases h with ⟨short, rfl⟩ | ⟨format, rest, rfl, ⟨wrong, rfl⟩ | ⟨-, _, ⟨supported, rfl⟩, h⟩⟩
    · exact .formatCut short
    · rw [← List.append_assoc]
      exact .format wrong
    rcases h with ⟨short, rfl⟩ | ⟨found, rest, rfl, ⟨wrong, rfl⟩ | ⟨-, _, ⟨rfl, rfl⟩, short, rfl⟩⟩
    · rw [← List.append_assoc]
      exact .deviceCut supported short
    · rw [← List.append_assoc, ← List.append_assoc]
      exact .device supported wrong
    · rw [← List.append_assoc, ← List.append_assoc]
      exact .versionCut supported short
  · -- each defect stops the reader on one path, past the parts before it
    intro h
    cases h with
    | magicCut short => exact .inl ⟨short, rfl⟩
    | magic length wrong => exact .inr ⟨⟨_, length⟩, _, rfl, .inl ⟨wrong, rfl⟩⟩
    | formatCut short =>
      refine .inr ⟨⟨_, rfl⟩, _, rfl, .inr ⟨(), _, ⟨rfl, rfl⟩, ?_⟩⟩
      exact .inl ⟨short, rfl⟩
    | format wrong =>
      rw [List.append_assoc]
      refine .inr ⟨⟨_, rfl⟩, _, rfl, .inr ⟨(), _, ⟨rfl, rfl⟩, ?_⟩⟩
      exact .inr ⟨_, _, rfl, .inl ⟨wrong, rfl⟩⟩
    | deviceCut supported short =>
      rw [List.append_assoc]
      refine .inr ⟨⟨_, rfl⟩, _, rfl, .inr ⟨(), _, ⟨rfl, rfl⟩, ?_⟩⟩
      refine .inr ⟨_, _, rfl, .inr ⟨(), _, ⟨supported, rfl⟩, ?_⟩⟩
      exact .inl ⟨short, rfl⟩
    | device supported wrong =>
      rw [List.append_assoc, List.append_assoc]
      refine .inr ⟨⟨_, rfl⟩, _, rfl, .inr ⟨(), _, ⟨rfl, rfl⟩, ?_⟩⟩
      refine .inr ⟨_, _, rfl, .inr ⟨(), _, ⟨supported, rfl⟩, ?_⟩⟩
      exact .inr ⟨_, _, rfl, .inl ⟨wrong, rfl⟩⟩
    | versionCut supported short =>
      rw [List.append_assoc, List.append_assoc]
      refine .inr ⟨⟨_, rfl⟩, _, rfl, .inr ⟨(), _, ⟨rfl, rfl⟩, ?_⟩⟩
      refine .inr ⟨_, _, rfl, .inr ⟨(), _, ⟨supported, rfl⟩, ?_⟩⟩
      exact .inr ⟨_, _, rfl, .inr ⟨(), _, ⟨rfl, rfl⟩, short, rfl⟩⟩

/-! ## One field -/

namespace Field

/-- The input is the beginning of a field and ends before that field does. -/
def CutShort (input : List UInt8) : Prop :=
  ∃ f : Field, f.value.length ≤ maxLength ∧ input <+: f.toBytes ∧ input.length < f.toBytes.length

theorem length_toBytes {f : Field} (fits : f.value.length ≤ maxLength) :
    f.toBytes.length = 2 + 4 + f.value.length := by
  simp only [toBytes_of_le fits, List.length_append, LittleEndian.length_ofNat]

theorem cutShort_of_tag (short : input.length < 2) : CutShort input := by
  obtain ⟨tag, bound, start⟩ := LittleEndian.exists_prefix_ofNat (Nat.le_of_lt short)
  have number : (UInt16.ofNat tag).toNat = tag := UInt16.toNat_ofNat_of_lt' bound
  have fits : (⟨UInt16.ofNat tag, []⟩ : Field).value.length ≤ maxLength := Nat.zero_le _
  refine ⟨_, fits, ?_, ?_⟩
  · rw [toBytes_of_le fits, number, List.append_assoc]
    exact start.trans (List.prefix_append ..)
  · rw [length_toBytes fits]
    omega

theorem cutShort_of_length {tag : UInt16} (short : input.length < 4) :
    CutShort (LittleEndian.ofNat 2 tag.toNat ++ input) := by
  obtain ⟨length, bound, start⟩ := LittleEndian.exists_prefix_ofNat (Nat.le_of_lt short)
  have fits : (⟨tag, List.replicate length 0⟩ : Field).value.length ≤ maxLength := by
    rw [List.length_replicate]
    exact Nat.le_of_lt_succ bound
  refine ⟨_, fits, ?_, ?_⟩
  · rw [toBytes_of_le fits, List.length_replicate, List.append_assoc]
    exact (List.prefix_append_right_inj _).mpr (start.trans (List.prefix_append ..))
  · rw [length_toBytes fits, List.length_append, LittleEndian.length_ofNat]
    omega

theorem cutShort_of_value {tag : UInt16} {length : UInt32} (short : input.length < length.toNat) :
    CutShort (LittleEndian.ofNat 2 tag.toNat ++ (LittleEndian.ofNat 4 length.toNat ++ input)) := by
  have whole :
      (input ++ List.replicate (length.toNat - input.length) 0).length = length.toNat := by
    rw [List.length_append, List.length_replicate]
    omega
  have fits : (⟨tag, input ++ List.replicate (length.toNat - input.length) 0⟩ : Field).value.length
      ≤ maxLength := by
    rw [whole]
    exact Nat.le_of_lt_succ length.toNat_lt
  refine ⟨_, fits, ?_, ?_⟩
  · rw [toBytes_of_le fits, whole, List.append_assoc, ← List.append_assoc _ input]
    exact (List.prefix_append_right_inj _).mpr (List.prefix_append ..)
  · rw [length_toBytes fits, whole]
    simp only [List.length_append, LittleEndian.length_ofNat]
    omega

/-- Reading a field fails only at the end of the input. -/
theorem cutShort_of_fails (h : Field.read.Fails input e) :
    CutShort input ∧ e = .unexpectedEnd := by
  simp only [Field.read, Reader.fails_bind, Reader.fails_u16, Reader.fails_u32, Reader.fails_take,
    Reader.not_fails_pure, Reader.run_u16_eq_ok, Reader.run_u32_eq_ok, and_false, exists_false,
    or_false] at h
  rcases h with ⟨short, rfl⟩ | ⟨tag, rest, rfl, ⟨short, rfl⟩ | ⟨length, rest, rfl, short, rfl⟩⟩
  · exact ⟨cutShort_of_tag short, rfl⟩
  · exact ⟨cutShort_of_length short, rfl⟩
  · exact ⟨cutShort_of_value short, rfl⟩

/-- What is cut short does not begin with another field, a complete one. -/
theorem run_read_ne_ok_of_cutShort (cut : CutShort input) {g : Field} {rest : List UInt8} :
    Field.read.run input ≠ .ok g rest := by
  intro h
  obtain ⟨f, fits, ⟨missing, eq⟩, short⟩ := cut
  obtain ⟨small, rfl⟩ := run_read_eq_ok.mp h
  have first : Field.read.run f.toBytes = .ok f [] :=
    run_read_eq_ok.mpr ⟨fits, (List.append_nil _).symm⟩
  have second : Field.read.run f.toBytes = .ok g (rest ++ missing) :=
    run_read_eq_ok.mpr ⟨small, by rw [← eq, List.append_assoc]⟩
  obtain ⟨rfl, -⟩ := EStateM.Result.ok.inj (first.symm.trans second)
  rw [List.length_append] at short
  omega

/-- A field is refused iff the input ends within it. -/
theorem fails_read : Field.read.Fails input e ↔ CutShort input ∧ e = .unexpectedEnd := by
  refine ⟨cutShort_of_fails, ?_⟩
  rintro ⟨cut, rfl⟩
  cases h : Field.read.run input with
  | ok g rest => exact absurd h (run_read_ne_ok_of_cutShort cut)
  | error e rest =>
    obtain ⟨-, rfl⟩ := cutShort_of_fails ⟨rest, h⟩
    exact ⟨rest, h⟩

/-- The first defect behind some complete fields with the given tags, and the error that reports it:
the input ends within the next field, or the next field is complete and repeats a tag. -/
inductive Defect (taken : List UInt16) : List UInt8 → Error → Prop
  | cutShort {rest : List UInt8} (more : rest ≠ []) (cut : CutShort rest) :
      Defect taken rest .unexpectedEnd
  | repeated {f : Field} {rest : List UInt8} (fits : f.value.length ≤ maxLength)
      (again : f.tag ∈ taken) : Defect taken (f.toBytes ++ rest) (.duplicateTag f.tag)

theorem Defect.mono {taken taken' : List UInt16} (h : Defect taken input e)
    (sub : taken ⊆ taken') : Defect taken' input e := by
  cases h with
  | cutShort more cut => exact .cutShort more cut
  | repeated fits again => exact .repeated fits (sub again)

end Field

/-! ## A sequence of fields -/

namespace Container

/-- A field that has been read is added if its tag is not taken. -/
theorem readFields_of_run_read {taken : List UInt16} {f : Field} {rest : List UInt8}
    (first : Field.read.run input = .ok f rest) (fresh : f.tag ∉ taken) :
    readFields taken input = (readFields (f.tag :: taken) rest).map (f :: ·) := by
  have more : input ≠ [] := by
    rintro rfl
    exact absurd (Field.length_lt_of_run_read first) (Nat.not_lt_zero _)
  rw [readFields_of_ne_nil more, first]
  simp only [fresh, if_false]

/-- Once some fields have been read, the others are read with their tags taken. -/
theorem readFields_append {taken : List UInt16} {fields : List Field} {rest : List UInt8}
    (fits : ∀ f ∈ fields, f.value.length ≤ Field.maxLength ∧ f.tag ∉ taken)
    (distinct : (fields.map (·.tag)).Nodup) :
    readFields taken (fields.flatMap Field.toBytes ++ rest) =
      (readFields ((fields.map (·.tag)).reverse ++ taken) rest).map (fields ++ ·) := by
  induction fields generalizing taken with
  | nil => cases h : readFields taken rest <;> simp [h, Except.map]
  | cons f fields ih =>
    obtain ⟨small, fresh⟩ := fits f List.mem_cons_self
    obtain ⟨first, distinct⟩ := List.nodup_cons.mp distinct
    have others : ∀ g ∈ fields, g.value.length ≤ Field.maxLength ∧ g.tag ∉ f.tag :: taken := by
      intro g hg
      obtain ⟨small, fresh⟩ := fits g (List.mem_cons_of_mem _ hg)
      have other : g.tag ≠ f.tag := fun same => first (List.mem_map.mpr ⟨g, hg, same⟩)
      exact ⟨small, List.not_mem_cons_of_ne_of_not_mem other fresh⟩
    have read : Field.read.run (f.toBytes ++ (fields.flatMap Field.toBytes ++ rest)) =
        .ok f (fields.flatMap Field.toBytes ++ rest) :=
      Field.run_read_eq_ok.mpr ⟨small, rfl⟩
    rw [List.flatMap_cons, List.append_assoc, readFields_of_run_read read fresh, ih others distinct,
      List.map_cons, List.reverse_cons, List.append_assoc, List.singleton_append]
    cases readFields ((fields.map (·.tag)).reverse ++ f.tag :: taken) rest <;> rfl

theorem readFields_of_defect {taken : List UInt16} (h : Field.Defect taken input e) :
    readFields taken input = .error e := by
  cases h with
  | cutShort more cut =>
    obtain ⟨rest, failed⟩ := Field.fails_read.mpr ⟨cut, rfl⟩
    rw [readFields_of_ne_nil more, failed]
  | @repeated f rest fits again =>
    have read : Field.read.run (f.toBytes ++ rest) = .ok f rest :=
      Field.run_read_eq_ok.mpr ⟨fits, rfl⟩
    have more : f.toBytes ++ rest ≠ [] := by
      intro empty
      exact absurd (Field.length_lt_of_run_read read) (by simp [empty])
    rw [readFields_of_ne_nil more, read]
    simp only [again, if_true]

/-- A sequence of fields is refused for the first defect behind the fields that were read. -/
theorem readFields_eq_error {taken : List UInt16} :
    readFields taken input = .error e ↔
      ∃ (fields : List Field) (rest : List UInt8),
        (∀ f ∈ fields, f.value.length ≤ Field.maxLength ∧ f.tag ∉ taken) ∧
        (fields.map (·.tag)).Nodup ∧ input = fields.flatMap Field.toBytes ++ rest ∧
          Field.Defect ((fields.map (·.tag)).reverse ++ taken) rest e := by
  constructor
  · intro h
    induction taken, input using readFields.induct with
    | case1 taken input empty =>
      rw [readFields, if_pos empty] at h
      cases h
    | case2 taken input more e' rest failed =>
      rw [readFields_of_ne_nil (by simpa using more), failed] at h
      cases h
      obtain ⟨cut, rfl⟩ := Field.fails_read.mp ⟨rest, failed⟩
      exact ⟨[], input, by simp, by simp, rfl, .cutShort (by simpa using more) cut⟩
    | case3 taken input more f rest read again =>
      rw [readFields_of_ne_nil (by simpa using more), read] at h
      simp only [again, if_true] at h
      cases h
      obtain ⟨fits, rfl⟩ := Field.run_read_eq_ok.mp read
      exact ⟨[], _, by simp, by simp, rfl, .repeated fits again⟩
    | case4 taken input more f rest read fresh ih =>
      obtain ⟨fits, rfl⟩ := Field.run_read_eq_ok.mp read
      rw [readFields_of_run_read read fresh] at h
      cases others : readFields (f.tag :: taken) rest with
      | ok gs =>
        rw [others] at h
        cases h
      | error e' =>
        rw [others] at h
        cases h
        obtain ⟨fields, rest, small, distinct, rfl, defect⟩ := ih others
        refine ⟨f :: fields, rest, ?_, ?_, ?_, ?_⟩
        · intro g hg
          rcases List.mem_cons.mp hg with rfl | hg
          · exact ⟨fits, fresh⟩
          · exact ⟨(small g hg).1, fun taken => (small g hg).2 (List.mem_cons_of_mem _ taken)⟩
        · refine List.nodup_cons.mpr ⟨fun again => ?_, distinct⟩
          obtain ⟨g, hg, same⟩ := List.mem_map.mp again
          exact (small g hg).2 (same ▸ List.mem_cons_self)
        · rw [List.flatMap_cons, List.append_assoc]
        · rw [List.map_cons, List.reverse_cons, List.append_assoc]
          exact defect
  · rintro ⟨fields, rest, fits, distinct, rfl, defect⟩
    rw [readFields_append fits distinct, readFields_of_defect defect]
    rfl

end Container

end PicCascade.Snapshot
