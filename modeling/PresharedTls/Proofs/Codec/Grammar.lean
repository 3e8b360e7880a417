import PresharedTls.Endpoint.Handshake
import PresharedTls.Proofs.Codec.Extension

/-!
# The grammar of hello messages

A hello is laid out field by field, and several fields say how long they are. Their lengths can contradict
one another, their bytes can be too few or too many; such bytes are laid out like no hello. What is read as
a hello is exactly what is laid out like one, and it is read as what it says.
-/

namespace PresharedTls

open Reader

/-- The bytes of a client's hello and what they say. Nothing is said by the session identifier, nor by
the codes of suites that have no name here. -/
inductive ClientHello.Layout : Bytes → ClientHello → Prop
  | intro {version : UInt16} {random : HelloRandom} {sessionId : Bytes} {codes : List UInt16} {methods : Bytes}
      {block : Bytes} {extensions : ExtensionMap} (hsessionId : sessionId.length ≤ 32) (hcodes : codes ≠ [])
      (hcount : 2 * codes.length < 65536) (hmethods : methods.length < 256) (hnull : 0 ∈ methods)
      (hblock : ExtensionMap.Block block extensions) :
      Layout
        (bigEndian 2 version.toNat ++ random.bytes ++
          (UInt8.ofNat sessionId.length :: sessionId) ++
          (bigEndian 2 (2 * codes.length) ++ codes.flatMap fun code => bigEndian 2 code.toNat) ++
          (UInt8.ofNat methods.length :: methods) ++ block)
        ⟨version, random, codes.filterMap CipherSuite.ofCode?, extensions⟩

/-- The bytes of a server's hello and what they say. -/
inductive ServerHello.Layout : Bytes → ServerHello → Prop
  | intro {version : UInt16} {random : HelloRandom} {sessionId : Bytes} {suite : UInt16} {block : Bytes}
      {extensions : ExtensionMap} (hsessionId : sessionId.length ≤ 32) (hblock : ExtensionMap.Block block extensions) :
      Layout
        (bigEndian 2 version.toNat ++ random.bytes ++
          (UInt8.ofNat sessionId.length :: sessionId) ++
          bigEndian 2 suite.toNat ++ [0] ++ block)
        ⟨version, random, suite, extensions⟩

/-! ### Lists of codes -/

namespace ClientHello

theorem length_codeBytes (codes : List UInt16) :
    (codes.flatMap fun code => bigEndian 2 code.toNat).length = 2 * codes.length := by
  induction codes with
  | nil => rfl
  | cons code rest ih =>
    rw [List.flatMap_cons, List.length_append, length_bigEndian, ih, List.length_cons]
    omega

theorem suiteCodes_flatMap (codes : List UInt16) :
    suiteCodes (codes.flatMap fun code => bigEndian 2 code.toNat) = codes := by
  induction codes with
  | nil => rfl
  | cons code rest ih =>
    have hcode := ofBigEndian_uint16 code
    rw [bigEndian_two] at hcode
    simp only [List.flatMap_cons, bigEndian_two, List.cons_append, List.nil_append, suiteCodes, hcode] at ih ⊢
    rw [ih]

/-- Bytes in pairs are codes one after the other. -/
theorem flatMap_suiteCodes {b : Bytes} (h : b.length % 2 = 0) :
    (suiteCodes b).flatMap (fun code => bigEndian 2 code.toNat) = b := by
  fun_induction suiteCodes b with
  | case1 high low rest ih =>
    have hrest : rest.length % 2 = 0 := by
      rw [List.length_cons, List.length_cons] at h
      omega
    rw [List.flatMap_cons, bigEndian_ofBigEndian_two, ih hrest]
    rfl
  | case2 b hshort =>
    match b with
    | [] => rfl
    | [_] => cases h
    | high :: low :: rest => exact (hshort high low rest rfl).elim

theorem filterMap_ofCode? (suites : List CipherSuite) :
    (suites.map (·.code)).filterMap CipherSuite.ofCode? = suites := by
  rw [List.filterMap_map]
  have hcode : CipherSuite.ofCode? ∘ CipherSuite.code = some := funext CipherSuite.ofCode?_code
  rw [hcode, List.filterMap_some]

end ClientHello

/-! ### Hello messages -/

/-- The extension block at the end of a hello. -/
theorem readAll?_extensions {α : Type} {block : Bytes} {make : ExtensionMap → α} {value : α} :
    (do let map ← fun b => (ExtensionMap.ofBytes? b).map fun map => (map, [])
        return make map : Reader α).readAll? block = some value ↔
      ∃ extensions, ExtensionMap.Block block extensions ∧ make extensions = value := by
  have hread : (do let map ← fun b => (ExtensionMap.ofBytes? b).map fun map => (map, [])
                   return make map : Reader α).readAll? block = (ExtensionMap.ofBytes? block).map make := by
    rw [run_readAll?, StateT.run_bind]
    show (((ExtensionMap.ofBytes? block).map _).bind _).bind _ = _
    cases ExtensionMap.ofBytes? block <;> rfl
  rw [hread, Option.map_eq_some_iff]
  simp only [ExtensionMap.ofBytes?_eq_some_iff]

theorem ClientHello.ofBytes?_eq_some_iff {b : Bytes} {hello : ClientHello} :
    ofBytes? b = some hello ↔ Layout b hello := by
  constructor
  · intro h
    rw [ofBytes?, reader] at h
    obtain ⟨version, _, hversion, h⟩ := exists_of_readAll?_bind h
    obtain ⟨random, _, hrandom, h⟩ := exists_of_readAll?_bind h
    obtain ⟨sessionId, _, hsessionId, h⟩ := exists_of_readAll?_bind h
    obtain ⟨suites, _, hsuites, h⟩ := exists_of_readAll?_bind h
    obtain ⟨methods, block, hmethods, h⟩ := exists_of_readAll?_bind h
    obtain ⟨hnull, h⟩ := of_readAll?_guard h
    obtain ⟨extensions, hblock, rfl⟩ := readAll?_extensions.mp h
    obtain rfl := of_run_uint16 hversion
    obtain rfl := of_run_fixed hrandom
    obtain ⟨rfl, -, hshort⟩ := of_run_vector8 hsessionId
    obtain ⟨rfl, hsome, heven, hcount⟩ := of_run_vector16 hsuites
    obtain ⟨rfl, -, hfew⟩ := of_run_vector8 hmethods
    have hcodes := flatMap_suiteCodes heven
    have hlength : suites.length = 2 * (suiteCodes suites).length := by
      rw [← length_codeBytes, hcodes]
    have hne : suiteCodes suites ≠ [] := List.ne_nil_of_length_pos (by omega)
    have hlayout := @Layout.intro version random sessionId (suiteCodes suites) methods block extensions hshort hne
      (hlength ▸ hcount) (Nat.lt_succ_of_le hfew) hnull hblock
    rw [hcodes, ← hlength] at hlayout
    simpa only [List.append_assoc] using hlayout
  · rintro @⟨version, random, sessionId, codes, methods, block, extensions, hsessionId, hcodes, hcount, hmethods, hnull,
      hblock⟩
    have hsome := List.length_pos_iff.mpr hcodes
    have hlength := length_codeBytes codes
    have hsuites : Reads (vector16 2 2)
        (bigEndian 2 (2 * codes.length) ++ codes.flatMap fun code => bigEndian 2 code.toNat)
        (codes.flatMap fun code => bigEndian 2 code.toNat) := by
      rw [← hlength]
      exact reads_vector16 (by omega) (by omega) (by omega)
    have hpresent := List.length_pos_iff.mpr (List.ne_nil_of_mem hnull)
    rw [ofBytes?, reader, List.append_assoc, List.append_assoc, List.append_assoc, List.append_assoc,
      (reads_uint16 version).readAll?_bind, (reads_fixed random).readAll?_bind,
      (reads_vector8 (Nat.zero_le _) hsessionId (by omega)).readAll?_bind,
      hsuites.readAll?_bind, (reads_vector8 hpresent (Nat.le_of_lt_succ hmethods) hmethods).readAll?_bind,
      readAll?_guard_bind hnull, suiteCodes_flatMap]
    exact readAll?_extensions.mpr ⟨extensions, hblock, rfl⟩

theorem ServerHello.ofBytes?_eq_some_iff {b : Bytes} {hello : ServerHello} :
    ofBytes? b = some hello ↔ Layout b hello := by
  constructor
  · intro h
    rw [ofBytes?, reader] at h
    obtain ⟨version, _, hversion, h⟩ := exists_of_readAll?_bind h
    obtain ⟨random, _, hrandom, h⟩ := exists_of_readAll?_bind h
    obtain ⟨sessionId, _, hsessionId, h⟩ := exists_of_readAll?_bind h
    obtain ⟨suite, _, hsuite, h⟩ := exists_of_readAll?_bind h
    obtain ⟨method, block, hmethod, h⟩ := exists_of_readAll?_bind h
    obtain ⟨rfl, h⟩ := of_readAll?_guard h
    obtain ⟨extensions, hblock, rfl⟩ := readAll?_extensions.mp h
    obtain rfl := of_run_uint16 hversion
    obtain rfl := of_run_fixed hrandom
    obtain ⟨rfl, -, hshort⟩ := of_run_vector8 hsessionId
    obtain rfl := of_run_uint16 hsuite
    obtain rfl := of_run_uint8 hmethod
    have hlayout := @Layout.intro version random sessionId suite block extensions hshort hblock
    simpa only [List.append_assoc, List.singleton_append] using hlayout
  · rintro @⟨version, random, sessionId, suite, block, extensions, hsessionId, hblock⟩
    rw [ofBytes?, reader, List.append_assoc, List.append_assoc, List.append_assoc, List.append_assoc,
      (reads_uint16 version).readAll?_bind, (reads_fixed random).readAll?_bind,
      (reads_vector8 (Nat.zero_le _) hsessionId (by omega)).readAll?_bind,
      (reads_uint16 suite).readAll?_bind, (reads_uint8 0).readAll?_bind, readAll?_guard_bind rfl]
    exact readAll?_extensions.mpr ⟨extensions, hblock, rfl⟩

/-- A reader of bodies takes what is laid out, as the value that it says, and everything else is refused
as a body that cannot be decoded. -/
structure Recognizes {α : Type} (ofBytes? : Bytes → Option α) (Layout : Bytes → α → Prop) : Prop where
  reads : ∀ b value, ofBytes? b = some value ↔ Layout b value
  refuses : ∀ b, (∀ value, ¬ Layout b value) → ∀ {κ : Type} (endpoint : Endpoint κ),
    (Endpoint.readBody (ofBytes? b)).run endpoint = .error (.sentAlert .decodeError) endpoint

theorem Recognizes.of_reads {α : Type} {ofBytes? : Bytes → Option α} {Layout : Bytes → α → Prop}
    (h : ∀ b value, ofBytes? b = some value ↔ Layout b value) : Recognizes ofBytes? Layout where
  reads := h
  refuses b hnone _ endpoint := by
    have hunread : ofBytes? b = none := Option.eq_none_iff_forall_ne_some.mpr fun value hread =>
      hnone value ((h b value).mp hread)
    rw [hunread]
    exact Endpoint.run_readBody_none endpoint

/-- **What is read as a hello is what is laid out like one.** Every length is right, the null compression
method is there, no extension comes twice, nothing is missing and nothing left over. -/
theorem hellos_recognized :
    Recognizes ClientHello.ofBytes? ClientHello.Layout ∧ Recognizes ServerHello.ofBytes? ServerHello.Layout :=
  ⟨.of_reads fun _ _ => ClientHello.ofBytes?_eq_some_iff, .of_reads fun _ _ => ServerHello.ofBytes?_eq_some_iff⟩

end PresharedTls
