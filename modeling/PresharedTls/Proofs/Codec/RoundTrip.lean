import Mathlib
import PresharedTls.Proofs.Codec.Capacity

/-!
# Hello messages there and back

What is written as a hello is read back as it was. The other way round bytes need not come back, since one
hello is laid out in many ways: with a session identifier, with suites unknown here, with its extensions in
another order or with an empty block of them. Writing what was read chooses the shortest of these layouts,
and that one stays as it is.
-/

namespace PresharedTls

namespace ExtensionMap

/-- The data of each extension, and all extensions with the type and length of each, are no longer than
two bytes can say. -/
structure Fits (map : ExtensionMap) : Prop where
  data : ∀ entry ∈ map.entries, entry.2.length ≤ 65535
  block : (map.entries.map fun entry => 4 + entry.2.length).sum ≤ 65535

theorem length_body (map : ExtensionMap) : map.body.length = (map.entries.map fun entry => 4 + entry.2.length).sum := by
  rw [body, List.length_flatMap]
  simp only [length_entryBytes]

theorem Fits.exists_bytes {map : ExtensionMap} (h : map.Fits) : ∃ block, map.bytes = .ok block := by
  obtain ⟨block, hblock, -⟩ := exists_bytes_of_body (map.length_body ▸ Nat.lt_succ_of_le h.block)
  exact ⟨block, hblock⟩

theorem bytes_of_not_fits {map : ExtensionMap} (h : ¬ map.Fits) : map.bytes = .error .internalError := by
  have hlong : ¬ map.body.length < 65536 := by
    intro hlength
    refine h ⟨fun entry hmem => ?_, map.length_body ▸ Nat.le_of_lt_succ hlength⟩
    exact Nat.le_of_lt_succ (Nat.lt_of_le_of_lt (length_le_of_mem hmem) hlength)
  have hsome : ¬ map.isEmpty = true := by
    intro hnone
    rw [isEmpty, List.isEmpty_iff] at hnone
    rw [body, hnone] at hlong
    exact hlong (by decide)
  rw [bytes, if_neg hsome, if_neg (by simp [hlong])]

end ExtensionMap

/-- Writing and reading go there and back. Values are written if they are `Writable` and refused
otherwise, and what was written is read as it was. Where a value that was read is `Named`, it is written
in no more bytes than it was read from, and those come back as they are. -/
structure RoundTrips {α : Type} (bytes : α → Except AlertDescription Bytes) (ofBytes? : Bytes → Option α)
    (Writable Named : α → Prop) : Prop where
  written : ∀ value, Writable value → ∃ b, bytes value = .ok b ∧ ofBytes? b = some value
  refused : ∀ value, ¬ Writable value → bytes value = .error .internalError
  rewritten : ∀ b value, ofBytes? b = some value → Named value → ∃ again, bytes value = .ok again ∧
    again.length ≤ b.length ∧ ofBytes? again = some value ∧ (ofBytes? again).map bytes = some (.ok again)

theorem RoundTrips.intro {α : Type} {bytes : α → Except AlertDescription Bytes} {ofBytes? : Bytes → Option α}
    {Writable Named : α → Prop} (hback : ∀ {value b}, bytes value = .ok b → ofBytes? b = some value)
    (hwritten : ∀ value, Writable value → ∃ b, bytes value = .ok b)
    (hrefused : ∀ value, ¬ Writable value → bytes value = .error .internalError)
    (hagain : ∀ b value, ofBytes? b = some value → Named value → ∃ again, bytes value = .ok again ∧
      again.length ≤ b.length) : RoundTrips bytes ofBytes? Writable Named where
  written value h := by
    obtain ⟨b, hb⟩ := hwritten value h
    exact ⟨b, hb, hback hb⟩
  refused := hrefused
  rewritten b value hread hnamed := by
    obtain ⟨again, hwrite, hlength⟩ := hagain b value hread hnamed
    exact ⟨again, hwrite, hlength, hback hwrite, by rw [hback hwrite, Option.map_some, hwrite]⟩

/-! ### Hello messages -/

/-- A hello has suites, as many as can be counted, and extensions for which there is room. -/
structure ClientHello.Fits (hello : ClientHello) : Prop where
  some : 1 ≤ hello.suites.length
  few : hello.suites.length ≤ 32767
  extensions : hello.extensions.Fits

theorem ClientHello.bytes_of_not_fits {hello : ClientHello} (h : ¬ hello.Fits) : hello.bytes = .error .internalError := by
  rw [bytes]
  by_cases hcount : hello.suites.length = 0 ∨ 32768 ≤ hello.suites.length
  · rw [if_pos hcount]
    rfl
  · have hextensions : ¬ hello.extensions.Fits := fun hfits => h ⟨by omega, by omega, hfits⟩
    rw [if_neg hcount, ExtensionMap.bytes_of_not_fits hextensions]
    rfl

/-- A hello that names a suite is written in no more bytes than it was read from. -/
theorem ClientHello.Layout.exists_bytes {b : Bytes} {hello : ClientHello} (h : Layout b hello) (hsuites : hello.suites ≠ []) :
    ∃ again, hello.bytes = .ok again ∧ again.length ≤ b.length := by
  cases h with
  | @intro version random sessionId codes methods block extensions hsessionId hcodes hcount hmethods hnull hblock =>
    obtain ⟨shorter, hshorter, hless⟩ := hblock.exists_bytes
    have hknown : (codes.filterMap CipherSuite.ofCode?).length ≤ codes.length := List.length_filterMap_le _ _
    have hpresent := List.length_pos_iff.mpr (List.ne_nil_of_mem hnull)
    obtain ⟨again, hagain, hlength⟩ := ClientHello.exists_bytes hsuites (Nat.lt_of_le_of_lt hknown (by omega)) hshorter
    refine ⟨again, hagain, ?_⟩
    simp only [List.length_append, length_bigEndian, random.length_bytes, length_codeBytes, List.length_cons]
    dsimp only at hlength
    omega

theorem ServerHello.bytes_of_not_fits {hello : ServerHello} (h : ¬ hello.extensions.Fits) :
    hello.bytes = .error .internalError := by
  rw [bytes, ExtensionMap.bytes_of_not_fits h]
  rfl

theorem ServerHello.Layout.exists_bytes {b : Bytes} {hello : ServerHello} (h : Layout b hello) :
    ∃ again, hello.bytes = .ok again ∧ again.length ≤ b.length := by
  cases h with
  | @intro version random sessionId suite block extensions hsessionId hblock =>
    obtain ⟨shorter, hshorter, hless⟩ := hblock.exists_bytes
    obtain ⟨again, hagain, hlength⟩ := @ServerHello.exists_bytes ⟨version, random, suite, extensions⟩ _ hshorter
    refine ⟨again, hagain, ?_⟩
    simp only [List.length_append, length_bigEndian, random.length_bytes, List.length_cons, List.length_nil]
    omega

/-- **Hello messages go there and back.** A client's hello without a suite that has a name here is the
only one that cannot be written again after it was read. -/
theorem hellos_roundTrip :
    RoundTrips ClientHello.bytes ClientHello.ofBytes? ClientHello.Fits (fun hello => hello.suites ≠ []) ∧
      RoundTrips ServerHello.bytes ServerHello.ofBytes? (fun hello => hello.extensions.Fits) (fun _ => True) := by
  constructor
  · refine .intro ClientHello.ofBytes?_bytes (fun hello hfits => ?_) (fun hello => ClientHello.bytes_of_not_fits)
      fun b hello hread => (ClientHello.ofBytes?_eq_some_iff.mp hread).exists_bytes
    obtain ⟨block, hblock⟩ := hfits.extensions.exists_bytes
    obtain ⟨b, hb, -⟩ := ClientHello.exists_bytes (List.ne_nil_of_length_pos hfits.some) (Nat.lt_succ_of_le hfits.few) hblock
    exact ⟨b, hb⟩
  · refine .intro ServerHello.ofBytes?_bytes (fun hello hfits => ?_) (fun hello => ServerHello.bytes_of_not_fits)
      fun b hello hread _ => (ServerHello.ofBytes?_eq_some_iff.mp hread).exists_bytes
    obtain ⟨block, hblock⟩ := hfits.exists_bytes
    obtain ⟨b, hb, -⟩ := ServerHello.exists_bytes hblock
    exact ⟨b, hb⟩

end PresharedTls
