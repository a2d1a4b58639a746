import PicCascade.Proofs.Snapshot.Layout
import PicCascade.Proofs.Snapshot.Value

/-!
# The canonical form of a snapshot

Fields are written in ascending order of their tags, whatever the order in which they were added. So
a device, a version and a finite map from tags to values have one written form, and reading it gives
all of them back. A snapshot from elsewhere is in this form iff its tags ascend and the minor
version of its format is zero.

Results:
* `insertByTag_perm`, `ascending_insertByTag`: placing a field loses nothing and keeps the order.
* `ofFields_eq_ok_iff`: the container that holds given fields.
* `toBytes_inj`: different containers have different bytes.
* `write_canonical`: writing and reading are inverse to each other, up to the canonical form.
-/

namespace PicCascade.Snapshot

theorem DeviceId.eq_of_bytes {a b : DeviceId} (same : a.bytes = b.bytes) : a = b := by
  cases a with
  | mk bytes length =>
    cases b with
    | mk bytes' length' =>
      obtain rfl : bytes = bytes' := same
      rfl

namespace Container

variable {device device' : DeviceId} {version version' : Version} {fields fields' : List Field}
  {c d : Container}

/-! ## The order of the fields -/

/-- The tags rise from each field to the next. -/
def Ascending (fields : List Field) : Prop := fields.Pairwise fun f g => f.tag < g.tag

instance (fields : List Field) : Decidable (Ascending fields) :=
  inferInstanceAs (Decidable (List.Pairwise _ _))

theorem insertByTag_perm (f : Field) (fields : List Field) :
    (insertByTag f fields).Perm (f :: fields) := by
  induction fields with
  | nil => exact List.Perm.refl _
  | cons g rest ih =>
    rw [insertByTag]
    split
    · exact List.Perm.refl _
    · exact (ih.cons g).trans (List.Perm.swap f g rest)

theorem ascending_insertByTag {f : Field} (ascending : Ascending fields)
    (fresh : ∀ g ∈ fields, g.tag ≠ f.tag) : Ascending (insertByTag f fields) := by
  induction fields with
  | nil => exact List.pairwise_singleton _ f
  | cons g rest ih =>
    obtain ⟨above, sorted⟩ := List.pairwise_cons.mp ascending
    rw [insertByTag]
    split
    · rename_i below
      refine List.pairwise_cons.mpr ⟨fun k hk => ?_, ascending⟩
      rcases List.mem_cons.mp hk with rfl | hk
      · exact below
      · exact UInt16.lt_trans below (above k hk)
    · rename_i notBelow
      have hg : g.tag < f.tag :=
        UInt16.lt_of_le_of_ne (UInt16.not_lt.mp notBelow) (fresh g List.mem_cons_self)
      have sorted := ih sorted fun k hk => fresh k (List.mem_cons_of_mem g hk)
      refine List.pairwise_cons.mpr ⟨fun k hk => ?_, sorted⟩
      rcases List.mem_cons.mp ((insertByTag_perm f rest).mem_iff.mp hk) with rfl | hk
      · exact hg
      · exact above k hk

/-- The same fields in ascending order are the same list. -/
theorem eq_of_perm (first : Ascending fields) (second : Ascending fields')
    (perm : fields.Perm fields') : fields = fields' := by
  refine perm.eq_of_pairwise (fun f g _ _ below above => ?_) first second
  exact absurd above (UInt16.lt_asymm below)

/-! ## Adding fields -/

theorem add_of_fresh {f : Field} (fresh : ∀ g ∈ c.fields, g.tag ≠ f.tag) :
    c.add f = .ok { c with fields := insertByTag f c.fields } := by
  have free : c.value? f.tag = none := by
    apply value?_eq_none_iff.mpr
    intro taken
    obtain ⟨g, hg, same⟩ := List.mem_map.mp taken
    exact fresh g hg same
  rw [add, free]
  rfl

/-- Fields with new and distinct tags are all placed in order. -/
theorem foldlM_add (ascending : Ascending c.fields)
    (distinct : ((c.fields ++ fields).map (·.tag)).Nodup) :
    ∃ sorted, fields.foldlM add c = .ok { c with fields := sorted } ∧ Ascending sorted ∧
      sorted.Perm (c.fields ++ fields) := by
  induction fields generalizing c with
  | nil => exact ⟨c.fields, rfl, ascending, by rw [List.append_nil]⟩
  | cons f rest ih =>
    have fresh : ∀ g ∈ c.fields, g.tag ≠ f.tag := by
      rw [List.map_append, List.map_cons] at distinct
      intro g hg
      exact (List.nodup_append.mp distinct).2.2 g.tag (List.mem_map_of_mem hg) f.tag
        List.mem_cons_self
    have placed : (insertByTag f c.fields ++ rest).Perm (c.fields ++ f :: rest) :=
      ((insertByTag_perm f c.fields).append_right rest).trans List.perm_middle.symm
    have distinct' : ((insertByTag f c.fields ++ rest).map (·.tag)).Nodup :=
      ((placed.map _).nodup_iff).mpr distinct
    obtain ⟨sorted, added, ascending', perm⟩ :=
      ih (c := { c with fields := insertByTag f c.fields })
        (ascending_insertByTag ascending fresh) distinct'
    refine ⟨sorted, ?_, ascending', perm.trans placed⟩
    rw [List.foldlM_cons, add_of_fresh fresh]
    exact added

/-- The container made of fields with distinct tags holds these fields, in ascending order. -/
theorem ofFields_eq_ok_iff (distinct : (fields.map (·.tag)).Nodup) :
    ofFields device version fields = .ok c ↔
      c.header = ⟨formatVersion, device, version⟩ ∧ Ascending c.fields ∧ c.fields.Perm fields := by
  obtain ⟨sorted, made, ascending, perm⟩ :=
    foldlM_add (c := empty device version) List.Pairwise.nil distinct
  rw [ofFields, made]
  constructor
  · intro h
    cases h
    exact ⟨rfl, ascending, perm⟩
  · rintro ⟨header, ascending', perm'⟩
    obtain ⟨head, fields'⟩ := c
    obtain rfl : head = ⟨formatVersion, device, version⟩ := header
    rw [eq_of_perm ascending ascending' (perm.trans perm'.symm)]
    rfl

theorem exists_ofFields (device : DeviceId) (version : Version)
    (distinct : (fields.map (·.tag)).Nodup) : ∃ c, ofFields device version fields = .ok c := by
  obtain ⟨sorted, made, -⟩ :=
    foldlM_add (c := empty device version) List.Pairwise.nil distinct
  exact ⟨_, made⟩

/-- The order in which fields are added makes no difference. -/
theorem ofFields_of_perm (distinct : (fields.map (·.tag)).Nodup) (perm : fields.Perm fields') :
    ofFields device version fields' = ofFields device version fields := by
  have distinct' : (fields'.map (·.tag)).Nodup := ((perm.map _).nodup_iff).mp distinct
  obtain ⟨c, made⟩ := exists_ofFields device version distinct
  obtain ⟨header, ascending, same⟩ := (ofFields_eq_ok_iff distinct).mp made
  rw [made]
  exact (ofFields_eq_ok_iff distinct').mpr ⟨header, ascending, same.trans perm⟩

/-! ## The bytes -/

/-- Fields that can be written: no tag is repeated, and each length fits into four bytes. -/
structure Storable (fields : List Field) : Prop where
  distinct : (fields.map (·.tag)).Nodup
  fits : ∀ f ∈ fields, f.value.length < 2 ^ 32

theorem Storable.of_perm (storable : Storable fields) (perm : fields.Perm fields') :
    Storable fields' where
  distinct := ((perm.map _).nodup_iff).mp storable.distinct
  fits f hf := storable.fits f (perm.mem_iff.mpr hf)

/-- What was read can be written. -/
theorem storable_of_parse {bytes : List UInt8} (parsed : parse device bytes = .ok c) :
    Storable c.fields := by
  obtain ⟨-, -, fits, distinct, -⟩ := parse_eq_ok.mp parsed
  exact ⟨distinct, fun f hf => Nat.lt_succ_of_le (fits f hf)⟩

/-- What is written can be read. -/
theorem parse_toBytes (format : c.header.format.major = formatVersion.major)
    (storable : Storable c.fields) : parse c.header.device c.toBytes = .ok c :=
  parse_eq_ok.mpr ⟨format, rfl, fun f hf => Nat.le_of_lt_succ (storable.fits f hf),
    storable.distinct, rfl⟩

/-- The device stands at the same place in all snapshots. -/
theorem device_eq_of_toBytes_eq (same : c.toBytes = d.toBytes) :
    c.header.device = d.header.device := by
  have start (c : Container) : c.toBytes = (magic ++ c.header.format.toBytes) ++
      (c.header.device.bytes ++ (c.header.version.toBytes ++ c.fields.flatMap Field.toBytes)) := by
    simp only [toBytes, Header.toBytes, List.append_assoc]
  have before (c : Container) : (magic ++ c.header.format.toBytes).length = 8 := by
    rw [List.length_append, Version.toBytes, List.length_append, LittleEndian.length_ofNat,
      LittleEndian.length_ofNat]
    rfl
  rw [start c, start d] at same
  obtain ⟨-, behind⟩ := List.append_inj same ((before c).trans (before d).symm)
  have length := c.header.device.length_bytes.trans d.header.device.length_bytes.symm
  obtain ⟨bytes, -⟩ := List.append_inj behind length
  exact DeviceId.eq_of_bytes bytes

/-- Containers of this format that can be written have different bytes if they differ. -/
theorem toBytes_inj (formatC : c.header.format.major = formatVersion.major)
    (storableC : Storable c.fields) (formatD : d.header.format.major = formatVersion.major)
    (storableD : Storable d.fields) : c.toBytes = d.toBytes ↔ c = d := by
  constructor
  · intro same
    have readC := parse_toBytes formatC storableC
    have readD := parse_toBytes formatD storableD
    rw [device_eq_of_toBytes_eq same, same] at readC
    exact Except.ok.inj (readC.symm.trans readD)
  · rintro rfl
    rfl

/-- The bytes of the container with the given fields, which are added in order. -/
def write (device : DeviceId) (version : Version) (fields : List Field) :
    Except Error (List UInt8) :=
  return (← ofFields device version fields).toBytes

/-- What can be written has one written form, and that form is read as it was meant. -/
theorem exists_write (device : DeviceId) (version : Version) (storable : Storable fields) :
    ∃ c, write device version fields = .ok c.toBytes ∧ parse device c.toBytes = .ok c ∧
      c.header = ⟨formatVersion, device, version⟩ ∧ Ascending c.fields ∧ c.fields.Perm fields := by
  obtain ⟨c, made⟩ := exists_ofFields device version storable.distinct
  obtain ⟨header, ascending, perm⟩ := (ofFields_eq_ok_iff storable.distinct).mp made
  have parsed : parse c.header.device c.toBytes = .ok c :=
    parse_toBytes (by rw [header]) (storable.of_perm perm.symm)
  rw [header] at parsed
  refine ⟨c, ?_, parsed, header, ascending, perm⟩
  rw [write, made]
  rfl

/-! ## The written form -/

/-- What a reader finds in a container that was made of the given fields. -/
structure Holds (c : Container) (fields : List Field) : Prop where
  /-- The fields are all there, and there are no others. -/
  perm : c.fields.Perm fields
  /-- An accessor returns an item exactly if the bytes of the item were written. -/
  item : ∀ tag item,
    c.item? tag item.shape = .ok (some item) ↔ ⟨tag, item.toBytes⟩ ∈ fields
  /-- An accessor refuses a field of another width. -/
  otherWidth : ∀ f ∈ fields, ∀ shape width what, shape.width? = some (width, what) →
    f.value.length ≠ width → c.item? f.tag shape = .error (.invalidEncoding what)

theorem holds_of_perm (storable : Storable fields) (perm : c.fields.Perm fields) :
    c.Holds fields where
  perm := perm
  item tag item := by
    rw [item?_eq_ok_some, value?_eq_some_iff (storable.of_perm perm.symm).distinct]
    exact perm.mem_iff
  otherWidth f hf shape width what fixed other := by
    have value : c.value? f.tag = some f.value :=
      (value?_eq_some_iff (storable.of_perm perm.symm).distinct).mpr (perm.mem_iff.mpr hf)
    exact item?_of_length_ne fixed value other

/-- The same bytes are written for the same device, the same version and the same map from tags to
values only. -/
theorem write_eq_write_iff (storable : Storable fields) (storable' : Storable fields') :
    write device version fields = write device' version' fields' ↔
      device = device' ∧ version = version' ∧ ∀ f, f ∈ fields ↔ f ∈ fields' := by
  constructor
  · intro same
    obtain ⟨c, written, -, header, -, perm⟩ := exists_write device version storable
    obtain ⟨d, written', -, header', -, perm'⟩ := exists_write device' version' storable'
    rw [written, written'] at same
    have eq : c = d :=
      (toBytes_inj (by rw [header]) (storable.of_perm perm.symm) (by rw [header'])
        (storable'.of_perm perm'.symm)).mp (Except.ok.inj same)
    subst eq
    cases header.symm.trans header'
    exact ⟨rfl, rfl, fun f => perm.mem_iff.symm.trans perm'.mem_iff⟩
  · rintro ⟨rfl, rfl, same⟩
    have perm : fields.Perm fields' :=
      (List.perm_ext_iff_of_nodup storable.distinct.of_map storable'.distinct.of_map).mpr same
    rw [write, write, ofFields_of_perm storable.distinct perm]

/-- A snapshot that was read is in its written form iff its tags ascend and the minor version of its
format is zero. -/
theorem toBytes_eq_iff_canonical {bytes : List UInt8} (parsed : parse device bytes = .ok c)
    (header : d.header = ⟨formatVersion, c.header.device, c.header.version⟩)
    (ascending : Ascending d.fields) (perm : d.fields.Perm c.fields) :
    d.toBytes = bytes ↔ Ascending c.fields ∧ c.header.format.minor = 0 := by
  have storable := storable_of_parse parsed
  obtain ⟨format, -, -, -, rfl⟩ := parse_eq_ok.mp parsed
  rw [toBytes_inj (by rw [header]) (storable.of_perm perm.symm) format storable]
  constructor
  · rintro rfl
    exact ⟨ascending, by rw [header]; rfl⟩
  · rintro ⟨ascending', minor⟩
    have fields := eq_of_perm ascending ascending' perm
    obtain ⟨⟨⟨major', minor'⟩, device', version'⟩, fields'⟩ := c
    obtain rfl : major' = formatVersion.major := format
    obtain rfl : minor' = 0 := minor
    obtain ⟨head, fields''⟩ := d
    obtain rfl : head = _ := header
    obtain rfl : fields'' = fields' := fields
    rfl

/-- Writing and reading are inverse to each other, up to the order of the fields. What is written is
read back, as a snapshot of format 1.0 with the device, the version and the fields that were given,
whatever the order in which they were added. The same bytes are written only for the same device, version
and map from tags to values. A snapshot that was read and is written again is read as before, and
its bytes are the same iff its tags ascend and the minor version of its format is zero. -/
theorem write_canonical :
    (∀ device version fields, Storable fields →
      ∃ bytes c, write device version fields = .ok bytes ∧ parse device bytes = .ok c ∧
        c.header = ⟨⟨1, 0⟩, device, version⟩ ∧ c.Holds fields ∧
        ∀ reordered, fields.Perm reordered → write device version reordered = .ok bytes) ∧
    (∀ device version fields device' version' fields', Storable fields → Storable fields' →
      (write device version fields = write device' version' fields' ↔
        device = device' ∧ version = version' ∧ ∀ f, f ∈ fields ↔ f ∈ fields')) ∧
    ∀ device bytes c, parse device bytes = .ok c →
      ∃ again d, write c.header.device c.header.version c.fields = .ok again ∧
        parse device again = .ok d ∧ d.header.device = c.header.device ∧
        d.header.version = c.header.version ∧ d.fields.Perm c.fields ∧
        (again = bytes ↔ Ascending c.fields ∧ c.header.format.minor = 0) := by
  refine ⟨?_, ?_, ?_⟩
  · intro device version fields storable
    obtain ⟨c, written, parsed, header, -, perm⟩ := exists_write device version storable
    refine ⟨c.toBytes, c, written, parsed, header, holds_of_perm storable perm, ?_⟩
    intro reordered same
    rw [← written, write, write, ofFields_of_perm storable.distinct same]
  · intro device version fields device' version' fields' storable storable'
    exact write_eq_write_iff storable storable'
  · intro device bytes c parsed
    obtain rfl : c.header.device = device := (parse_eq_ok.mp parsed).2.1
    obtain ⟨d, written, read, header, ascending, perm⟩ :=
      exists_write c.header.device c.header.version (storable_of_parse parsed)
    refine ⟨d.toBytes, d, written, read, by rw [header], by rw [header], perm, ?_⟩
    exact toBytes_eq_iff_canonical parsed header ascending perm

/-- A number and a truth value, the higher tag first. -/
def countAndFlag : List Field :=
  [⟨5, (Item.u16 0x1234).toBytes⟩, ⟨3, (Item.bool true).toBytes⟩]

/-- Both values are read back, the number is not cut to a byte, and the order of the additions cannot
be told. A snapshot with the fields in that order is not in its written form. -/
theorem write_canonical_countAndFlag :
    let device : DeviceId := { bytes := [0x54, 0x45, 0x53, 0x54] }
    let found : Container := ⟨⟨⟨1, 0⟩, device, ⟨3, 7⟩⟩, countAndFlag⟩
    Storable countAndFlag ∧ parse device found.toBytes = .ok found ∧
      (∃ bytes c, write device ⟨3, 7⟩ countAndFlag = .ok bytes ∧ parse device bytes = .ok c ∧
        c.item? 5 .u16 = .ok (some (.u16 0x1234)) ∧ c.item? 3 .bool = .ok (some (.bool true)) ∧
        c.item? 5 .u8 = .error (.invalidEncoding .u8) ∧
        write device ⟨3, 7⟩ countAndFlag.reverse = .ok bytes) ∧
      ∃ again, write device ⟨3, 7⟩ countAndFlag = .ok again ∧ again ≠ found.toBytes := by
  intro device found
  have storable : Storable countAndFlag := ⟨by decide, by decide⟩
  have parsed : parse device found.toBytes = .ok found := parse_toBytes (c := found) rfl storable
  obtain ⟨readBack, -, rewritten⟩ := write_canonical
  refine ⟨storable, parsed, ?_, ?_⟩
  · obtain ⟨bytes, c, written, read, -, holds, reordered⟩ := readBack device ⟨3, 7⟩ _ storable
    refine ⟨bytes, c, written, read, ?_, ?_, ?_, ?_⟩
    · exact (holds.item 5 (.u16 0x1234)).mpr (by decide)
    · exact (holds.item 3 (.bool true)).mpr (by decide)
    · exact holds.otherWidth ⟨5, (Item.u16 0x1234).toBytes⟩ (by decide) .u8 1 .u8 rfl (by decide)
    · exact reordered _ (List.reverse_perm _).symm
  · obtain ⟨again, -, written, -, -, -, -, same⟩ := rewritten device _ found parsed
    refine ⟨again, written, fun eq => ?_⟩
    exact absurd (same.mp eq).1 (by decide)

end Container

end PicCascade.Snapshot
