import PresharedTls.Extension
import PresharedTls.Proofs.Codec.Reader

/-!
# Reading extension blocks

A block may list its entries in any order. A reader puts each into its place, so what it has in the end
are the entries that it has read, and a map that was written is read back whatever the order was.
-/

namespace PresharedTls.ExtensionMap

/-! ### Maps and their entries -/

theorem nodup_types (map : ExtensionMap) : map.types.Nodup :=
  List.pairwise_map.mpr (map.ascending.imp UInt16.ne_of_lt)

/-- A map is the same in whatever order its entries are told. -/
theorem eq_of_perm {map other : ExtensionMap} (h : map.entries.Perm other.entries) : map = other :=
  ext_entries (h.eq_of_pairwise (fun _ _ _ _ hbelow habove => absurd habove (UInt16.lt_asymm hbelow)) map.ascending
    other.ascending)

theorem get?_eq_none_iff {map : ExtensionMap} {type : UInt16} : map.get? type = none ↔ type ∉ map.types := by
  rw [get?, List.lookup_eq_none_iff, types, List.mem_map]
  constructor
  · rintro hother ⟨entry, hmem, rfl⟩
    simpa using hother entry hmem
  · intro hfresh entry hmem
    simpa using fun hsame => hfresh ⟨entry, hmem, Eq.symm hsame⟩

theorem perm_insertEntry {type : UInt16} {data : Bytes} {entries : List (UInt16 × Bytes)}
    (hfresh : type ∉ entries.map (·.1)) : (insertEntry type data entries).Perm ((type, data) :: entries) := by
  induction entries with
  | nil => exact .refl _
  | cons entry rest ih =>
    obtain ⟨other, kept⟩ := entry
    rw [List.map_cons, List.mem_cons, not_or] at hfresh
    rw [insertEntry]
    split
    · exact .refl _
    · rw [if_neg hfresh.1]
      exact ((ih hfresh.2).cons _).trans (.swap _ _ _)

theorem length_entryBytes (entry : UInt16 × Bytes) : (entryBytes entry).length = 4 + entry.2.length := by
  simp only [entryBytes, List.length_append, length_bigEndian]

theorem length_le_of_mem {entries : List (UInt16 × Bytes)} {entry : UInt16 × Bytes} (h : entry ∈ entries) :
    entry.2.length ≤ (entries.flatMap entryBytes).length := by
  obtain ⟨front, rear, rfl⟩ := List.append_of_mem h
  rw [List.flatMap_append, List.flatMap_cons, List.length_append, List.length_append, length_entryBytes]
  omega

/-! ### Entries one after the other -/

/-- One entry in front of others is read and put into the map. -/
theorem readEntries_entryBytes {map : ExtensionMap} {type : UInt16} {data : Bytes} (hfresh : map.get? type = none)
    (hbound : data.length < 65536) (rest : Bytes) :
    readEntries map (entryBytes (type, data) ++ rest) = readEntries (map.insert type data) rest := by
  have htype := ofBigEndian_uint16 type
  have hlength : ofBigEndian (bigEndian 2 data.length) = data.length := ofBigEndian_bigEndian_of_lt hbound
  rw [bigEndian_two] at htype hlength
  simp only [entryBytes, bigEndian_two, List.cons_append, List.nil_append]
  rw [readEntries, htype, hlength, if_neg (by simp), if_neg (by simp [hfresh]), List.take_left, List.drop_left]

/-- Entries of types that differ from one another and from those of a map are read into it. -/
theorem exists_readEntries {entries : List (UInt16 × Bytes)} (hbound : ∀ entry ∈ entries, entry.2.length < 65536)
    {map : ExtensionMap} (hdistinct : ((map.entries ++ entries).map (·.1)).Nodup) :
    ∃ after, readEntries map (entries.flatMap entryBytes) = some after ∧
      after.entries.Perm (map.entries ++ entries) := by
  induction entries generalizing map with
  | nil => exact ⟨map, by rw [List.flatMap_nil, readEntries], by rw [List.append_nil]⟩
  | cons entry rest ih =>
    obtain ⟨type, data⟩ := entry
    have hmiddle : (map.entries ++ (type, data) :: rest).Perm ((type, data) :: (map.entries ++ rest)) := List.perm_middle
    have hfresh : type ∉ map.types := by
      have hnodup := (hmiddle.map Prod.fst).nodup_iff.mp hdistinct
      rw [List.map_cons, List.nodup_cons, List.map_append] at hnodup
      exact fun hmem => hnodup.1 (List.mem_append_left _ hmem)
    have hinsert : ((map.insert type data).entries ++ rest).Perm (map.entries ++ (type, data) :: rest) :=
      ((perm_insertEntry hfresh).append_right rest).trans hmiddle.symm
    obtain ⟨after, hread, hafter⟩ := ih (fun entry mem => hbound entry (List.mem_cons_of_mem _ mem))
      ((hinsert.map Prod.fst).nodup_iff.mpr hdistinct)
    refine ⟨after, ?_, hafter.trans hinsert⟩
    rw [List.flatMap_cons, readEntries_entryBytes (get?_eq_none_iff.mpr hfresh) (hbound _ List.mem_cons_self), hread]

/-- What was read into a map are entries one after the other. -/
theorem of_readEntries {map after : ExtensionMap} {b : Bytes} (h : readEntries map b = some after) :
    ∃ entries, b = entries.flatMap entryBytes ∧ after.entries.Perm (map.entries ++ entries) := by
  fun_induction readEntries map b with
  | case1 map =>
    cases h
    exact ⟨[], rfl, by rw [List.append_nil]⟩
  | case2 => cases h
  | case3 => cases h
  | case4 map high low lengthHigh lengthLow rest hlength hfresh ih =>
    obtain ⟨entries, hrest, hafter⟩ := ih h
    generalize htype : UInt16.ofNat (ofBigEndian [high, low]) = type at hfresh hafter
    generalize hdata : rest.take (ofBigEndian [lengthHigh, lengthLow]) = data at hafter
    have hhead : entryBytes (type, data) = high :: low :: lengthHigh :: lengthLow :: data := by
      have hcount : data.length = (UInt16.ofNat (ofBigEndian [lengthHigh, lengthLow])).toNat := by
        have hsmall : ofBigEndian [lengthHigh, lengthLow] < 65536 := by
          have := lengthHigh.toNat_lt
          have := lengthLow.toNat_lt
          simp only [ofBigEndian, List.foldl_cons, List.foldl_nil]
          omega
        rw [← hdata, List.length_take, UInt16.toNat_ofNat', Nat.mod_eq_of_lt hsmall]
        omega
      rw [entryBytes, ← htype, hcount, bigEndian_ofBigEndian_two, bigEndian_ofBigEndian_two]
      rfl
    refine ⟨(type, data) :: entries, ?_, ?_⟩
    · rw [List.flatMap_cons, hhead, ← hrest, ← hdata]
      simp only [List.cons_append, List.take_append_drop]
    · have hnew : type ∉ map.types := by
        rwa [Bool.not_eq_true, Option.isSome_eq_false_iff, Option.isNone_iff_eq_none, get?_eq_none_iff] at hfresh
      exact hafter.trans (((perm_insertEntry hnew).append_right entries).trans List.perm_middle.symm)
  | case5 => cases h

/-! ### Blocks -/

/-- What a hello may end with to give the extensions of a map: nothing at all if there are none, or a
length that two bytes can say and behind it the entries in any order, each with a type of its own. -/
inductive Block : Bytes → ExtensionMap → Prop
  | absent : Block [] empty
  | present {entries : List (UInt16 × Bytes)} {map : ExtensionMap} (hdistinct : (entries.map (·.1)).Nodup)
      (hlength : (entries.flatMap entryBytes).length < 65536) (hmap : map.entries.Perm entries) :
      Block (bigEndian 2 (entries.flatMap entryBytes).length ++ entries.flatMap entryBytes) map

/-- A block that is read is a block of the map that it is read as, and there are no others. -/
theorem ofBytes?_eq_some_iff {b : Bytes} {map : ExtensionMap} : ofBytes? b = some map ↔ Block b map := by
  constructor
  · intro h
    rw [ofBytes?] at h
    split at h
    · next hnone =>
      cases h
      rw [List.isEmpty_iff.mp hnone]
      exact .absent
    · obtain ⟨body, hbody, hentries⟩ := Option.bind_eq_some_iff.mp h
      obtain ⟨rfl, -, -, hlength⟩ := Reader.of_run_vector16 (Reader.of_readAll? hbody)
      obtain ⟨entries, rfl, hmap⟩ := of_readEntries hentries
      rw [List.append_nil]
      exact .present ((hmap.map Prod.fst).nodup_iff.mp map.nodup_types) hlength hmap
  · rintro (_ | @⟨entries, map, hdistinct, hlength, hmap⟩)
    · rfl
    have hread := (Reader.reads_vector16 (Nat.zero_le _) (Nat.mod_one _) hlength).readAll?
    have hbound : ∀ entry ∈ entries, entry.2.length < 65536 :=
      fun entry hmem => Nat.lt_of_le_of_lt (length_le_of_mem hmem) hlength
    obtain ⟨after, hentries, hafter⟩ := @exists_readEntries entries hbound empty hdistinct
    rw [ofBytes?, if_neg (by simp [bigEndian_two]), hread, eq_of_perm (hmap.trans hafter.symm)]
    exact hentries

/-- The one block that a map is written as. -/
theorem block_of_bytes {map : ExtensionMap} {b : Bytes} (h : map.bytes = .ok b) : Block b map := by
  rw [bytes] at h
  split at h
  · next hempty =>
    cases h
    have hmap : map = empty := ext_entries (List.isEmpty_iff.mp hempty)
    rw [hmap]
    exact .absent
  · split at h
    · next hfits =>
      cases h
      rw [Bool.and_eq_true, decide_eq_true_eq] at hfits
      exact .present map.nodup_types hfits.2 (.refl _)
    · cases h

theorem ofBytes?_bytes {map : ExtensionMap} {b : Bytes} (h : map.bytes = .ok b) : ofBytes? b = some map :=
  ofBytes?_eq_some_iff.mpr (block_of_bytes h)

end PresharedTls.ExtensionMap
