import Mathlib.Data.List.Flatten
import PresharedTls.Proofs.Codec.Hello
import PresharedTls.Proofs.Terms
import PresharedTls.Settings

/-!
# What is negotiated

The answer of a server to the hello of a client. Where the client's version is within the server's
range and one of its suites is accepted, the answer lies within the offer. It can be written down in
less room than the hello, and its extensions are well-formed because the offer's are.
-/

namespace PresharedTls

/-! ### Versions -/

namespace Version

theorem negotiate_of_le {version maximum : Version} (h : version ≤ maximum) :
    negotiate version.code maximum = some version := by
  revert h
  cases version <;> cases maximum <;> decide

theorem negotiate_of_not_le {version maximum : Version} (h : ¬ version ≤ maximum) :
    negotiate version.code maximum = some maximum := by
  revert h
  cases version <;> cases maximum <;> decide

theorem not_lt {version other : Version} : ¬ version < other ↔ other ≤ version :=
  UInt16.not_lt

theorem le_trans {a b c : Version} (hab : a ≤ b) (hbc : b ≤ c) : a ≤ c :=
  UInt16.le_trans hab hbc

theorem le_of_not_le {version other : Version} (h : ¬ version ≤ other) : other ≤ version :=
  UInt16.le_of_lt (UInt16.not_le.mp h)

theorem code_injective {version other : Version} (h : version.code = other.code) : version = other := by
  have hcode := congrArg ofCode? h
  rw [ofCode?_code, ofCode?_code] at hcode
  exact Option.some.inj hcode

end Version

namespace ServerPolicy

variable {policy : ServerPolicy} {version : Version}

theorem chooseVersion_of_inRange (hminimum : policy.minimumVersion ≤ version) (hmaximum : version ≤ policy.maximumVersion) :
    policy.chooseVersion version.code = .ok version := by
  simp only [chooseVersion, Version.negotiate_of_le hmaximum, if_neg (Version.not_lt.mpr hminimum)]

theorem chooseVersion_of_below (hrange : policy.minimumVersion ≤ policy.maximumVersion)
    (h : ¬ policy.minimumVersion ≤ version) : policy.chooseVersion version.code = .error .protocolVersion := by
  have hmaximum := Version.le_trans (Version.le_of_not_le h) hrange
  have hbelow : version < policy.minimumVersion := UInt16.not_le.mp h
  simp only [chooseVersion, Version.negotiate_of_le hmaximum, if_pos hbelow]

/-- A client that goes further than the server is answered with the server's last version. -/
theorem chooseVersion_of_above (hrange : policy.minimumVersion ≤ policy.maximumVersion)
    (h : ¬ version ≤ policy.maximumVersion) : policy.chooseVersion version.code = .ok policy.maximumVersion := by
  simp only [chooseVersion, Version.negotiate_of_not_le h, if_neg (Version.not_lt.mpr hrange)]

theorem minimumVersion_le {offered : List CipherSuite} {suite : CipherSuite}
    (h : offered.find? (policy.accepts version) = some suite) : suite.minimumVersion ≤ version := by
  have haccepted := List.find?_some h
  rw [accepts, Bool.and_eq_true, decide_eq_true_eq] at haccepted
  exact haccepted.2

end ServerPolicy

/-! ### Extensions -/

namespace ExtensionMap

theorem get?_of_mem {map : ExtensionMap} {entry : UInt16 × Bytes} (h : entry ∈ map.entries) :
    map.get? entry.1 = some entry.2 := by
  obtain ⟨entries, ascending⟩ := map
  rw [get?]
  induction entries with
  | nil => cases h
  | cons first rest ih =>
    rw [List.pairwise_cons] at ascending
    obtain rfl | hrest := List.mem_cons.mp h
    · rw [List.lookup_cons, beq_self_eq_true]
    · have hne : entry.1 ≠ first.1 := (UInt16.ne_of_lt (ascending.1 entry hrest)).symm
      have hbehind := ih ascending.2 hrest
      rw [List.lookup_cons, beq_false_of_ne hne]
      exact hbehind

theorem get?_eq_some_iff {map : ExtensionMap} {type : UInt16} {data : Bytes} :
    map.get? type = some data ↔ (type, data) ∈ map.entries := by
  constructor
  · intro h
    obtain ⟨front, rear, hentries, -⟩ := List.lookup_eq_some_iff.mp h
    simp [hentries]
  · exact get?_of_mem

theorem mem_ofList {entries : List (UInt16 × Bytes)} {entry : UInt16 × Bytes} (h : entry ∈ (ofList entries).entries) :
    entry ∈ entries := by
  have hfold (map : ExtensionMap) : entry ∈ (entries.foldl (fun map entry => map.insert entry.1 entry.2) map).entries →
      entry ∈ map.entries ∨ entry ∈ entries := by
    clear h
    induction entries generalizing map with
    | nil => exact Or.inl
    | cons first rest ih =>
      intro hmem
      obtain hinserted | hrest := ih _ hmem
      · obtain heq | hmap := mem_insertEntry hinserted
        · exact Or.inr (List.mem_cons.mpr (Or.inl heq))
        · exact Or.inl hmap
      · exact Or.inr (List.mem_cons_of_mem _ hrest)
  obtain hnone | hmem := hfold empty h
  · cases hnone
  · exact hmem

/-- A map with fewer entries can be written down in less room. -/
theorem exists_bytes_of_sublist {map fewer : ExtensionMap} {block : Bytes} (hsublist : fewer.entries.Sublist map.entries)
    (h : map.bytes = .ok block) : ∃ b, fewer.bytes = .ok b ∧ b.length ≤ block.length := by
  by_cases hempty : fewer.isEmpty
  · exact ⟨[], if_pos hempty, Nat.zero_le _⟩
  · rw [bytes] at h
    split at h
    · next hall =>
      have hentries : fewer.entries = [] := by
        rw [List.isEmpty_iff.mp hall, List.sublist_nil] at hsublist
        exact hsublist
      exact absurd (List.isEmpty_iff.mpr hentries) hempty
    · split at h
      · next hfits =>
        obtain rfl := Except.ok.inj h
        have hbody : fewer.body.length ≤ map.body.length := (hsublist.flatMap entryBytes).length_le
        rw [Bool.and_eq_true, List.all_eq_true, decide_eq_true_eq] at hfits
        have hfewer : (fewer.entries.all (·.2.length < 65536) && decide (fewer.body.length < 65536)) = true := by
          rw [Bool.and_eq_true, List.all_eq_true, decide_eq_true_eq]
          exact ⟨fun entry hmem => hfits.1 entry (hsublist.subset hmem), by omega⟩
        refine ⟨_, by rw [bytes, if_neg hempty, if_pos hfewer], ?_⟩
        simp only [List.length_append, length_bigEndian]
        omega
      · cases h

/-- Data that the extension's type allows. -/
def WellFormed (entry : UInt16 × Bytes) : Prop :=
  match ExtensionType.ofCode? entry.1 with
  | none => True
  | some .maxFragmentLength => ∃ length, MaxFragmentLength.ofBytes entry.2 = .ok length
  | some _ => entry.2 = []

end ExtensionMap

theorem ClientSettings.wellFormed_of_mem_extensions {κ : Type} {settings : ClientSettings κ} {entry : UInt16 × Bytes}
    (h : entry ∈ settings.extensions.entries) : ExtensionMap.WellFormed entry := by
  have hmem := ExtensionMap.mem_ofList h
  rw [List.mem_append, List.mem_append] at hmem
  obtain (hlength | hencrypt) | htruncated := hmem
  · obtain ⟨length, -, rfl⟩ := List.mem_map.mp hlength
    exact ⟨length, by cases length <;> rfl⟩
  · dsimp only at hencrypt
    split at hencrypt
    · obtain rfl := List.mem_singleton.mp hencrypt
      rfl
    · cases hencrypt
  · dsimp only at htruncated
    split at htruncated
    · obtain rfl := List.mem_singleton.mp htruncated
      rfl
    · cases htruncated

theorem ServerPolicy.sublist_chooseExtensions (policy : ServerPolicy) (suite : CipherSuite) (offered : ExtensionMap) :
    (policy.chooseExtensions suite offered).entries.Sublist offered.entries := by
  unfold chooseExtensions
  dsimp only
  split
  · exact List.filter_sublist
  · exact List.filter_sublist.trans List.filter_sublist

/-! ### The answer -/

section

variable {offer : ClientOffer} {policy : ServerPolicy} {hello : ClientHello} {version : Version} {suite : CipherSuite}

/-- The answer with a version and a suite, once they are chosen. -/
def ServerPolicy.answering (policy : ServerPolicy) (hello : ClientHello) (version : Version) (suite : CipherSuite)
    (random : HelloRandom) : ServerHello :=
  ⟨version.code, random, suite.code, policy.chooseExtensions suite hello.extensions⟩

theorem ServerPolicy.answer_of_chosen (policy : ServerPolicy) (hello : ClientHello)
    (hversion : policy.chooseVersion hello.version = .ok version)
    (hsuite : hello.suites.find? (policy.accepts version) = some suite) (entropy : Entropy) :
    policy.answer hello entropy =
      .ok (policy.answering hello version suite (entropy.draw 32).1, (entropy.draw 32).2) := by
  have hchosen : policy.chooseSuite version hello.suites = .ok suite := by simp only [chooseSuite, hsuite]
  rw [answer, hversion]
  show (policy.chooseSuite version hello.suites >>= _) = _
  rw [hchosen]
  rfl

theorem ServerPolicy.answer_of_no_version {alert : AlertDescription}
    (hversion : policy.chooseVersion hello.version = .error alert) (entropy : Entropy) :
    policy.answer hello entropy = .error alert := by
  rw [answer, hversion]
  rfl

theorem ServerPolicy.answer_of_no_suite (hversion : policy.chooseVersion hello.version = .ok version)
    (hsuite : hello.suites.find? (policy.accepts version) = none) (entropy : Entropy) :
    policy.answer hello entropy = .error .illegalParameter := by
  have hnone : policy.chooseSuite version hello.suites = .error .illegalParameter := by simp only [chooseSuite, hsuite]
  rw [answer, hversion]
  show (policy.chooseSuite version hello.suites >>= _) = _
  rw [hnone]
  rfl

/-- An answer takes less room than the hello it is for. -/
theorem ServerPolicy.exists_bytes_answering (policy : ServerPolicy) (version : Version) (suite : CipherSuite)
    {body : Bytes} (hbody : hello.bytes = .ok body) (random : HelloRandom) :
    ∃ b, (policy.answering hello version suite random).bytes = .ok b ∧ b.length ≤ body.length := by
  by_cases hcount : hello.suites.length = 0 ∨ 32768 ≤ hello.suites.length
  · simp only [ClientHello.bytes, if_pos hcount] at hbody
    cases hbody
  cases hblock : hello.extensions.bytes with
  | error alert =>
    simp only [ClientHello.bytes, if_neg hcount, hblock] at hbody
    cases hbody
  | ok block =>
    simp only [ClientHello.bytes, if_neg hcount, hblock] at hbody
    obtain rfl := Except.ok.inj hbody
    obtain ⟨chosen, hchosen, hlength⟩ :=
      ExtensionMap.exists_bytes_of_sublist (policy.sublist_chooseExtensions suite hello.extensions) hblock
    refine ⟨bigEndian 2 version.code.toNat ++ random.bytes ++ [0] ++ bigEndian 2 suite.code.toNat ++ [0] ++ chosen, ?_, ?_⟩
    · simp only [ServerHello.bytes, answering, hchosen]
      rfl
    · simp only [List.length_append, length_bigEndian, random.length_bytes, hello.random.length_bytes, List.length_cons]
      omega

/-- A client is content with an answer of its own version, to its own hello. -/
theorem ClientOffer.check_answering (hextensions : hello.extensions = offer.extensions)
    (hsuite : suite ∈ offer.suites) (random : HelloRandom) : offer.check (policy.answering hello version suite random) =
      if version = offer.version then .ok () else .error .protocolVersion := by
  by_cases hversion : version = offer.version
  · have hany : offer.suites.any (·.code = suite.code) = true := List.any_eq_true.mpr ⟨suite, hsuite, by simp⟩
    have hcovers : (policy.chooseExtensions suite hello.extensions).entries.all offer.covers = true := by
      rw [List.all_eq_true]
      intro entry hmem
      have hoffered := (policy.sublist_chooseExtensions suite hello.extensions).subset hmem
      rw [hextensions] at hoffered
      simp [covers, ExtensionMap.get?_of_mem hoffered]
    simp [check, ServerPolicy.answering, hversion, hany, hcovers]
  · have hcode : version.code ≠ offer.version.code := fun h => hversion (Version.code_injective h)
    simp [check, ServerPolicy.answering, hversion, hcode]

end

/-! ### Taking it over -/

namespace Parameters

/-- A record can be neither too small for a Finished nor too large for its header. -/
def Sensible (parameters : Parameters) : Prop :=
  512 ≤ parameters.plaintextLimit ∧ parameters.plaintextLimit ≤ maximumPlaintext

theorem sensible_start : start.Sensible := by
  simp [Sensible, start, maximumPlaintext]

theorem Sensible.positive {parameters : Parameters} (h : parameters.Sensible) : 0 < parameters.plaintextLimit :=
  Nat.lt_of_lt_of_le (by decide) h.1

theorem Sensible.extended {parameters : Parameters} (h : parameters.Sensible) (entry : UInt16 × Bytes) :
    (parameters.extended entry).Sensible := by
  rw [Parameters.extended]
  split
  · next length _ _ => cases length <;> simp [Sensible, MaxFragmentLength.limit, maximumPlaintext]
  · exact h
  · exact h
  · exact h

theorem Sensible.foldl_extended {parameters : Parameters} (h : parameters.Sensible) (entries : List (UInt16 × Bytes)) :
    (entries.foldl Parameters.extended parameters).Sensible := by
  induction entries generalizing parameters with
  | nil => exact h
  | cons entry rest ih => exact ih (h.extended entry)

end Parameters

/-- The terms behind such an answer. -/
def Terms.answering (terms : Terms) (policy : ServerPolicy) (hello : ClientHello) (version : Version)
    (suite : CipherSuite) (random : HelloRandom) : Terms :=
  { terms with
    version := version
    suite := some suite
    serverRandom := some random
    parameters := (policy.chooseExtensions suite hello.extensions).entries.foldl .extended terms.parameters }

theorem Terms.sensible_answering {terms : Terms} (h : terms.parameters.Sensible) (policy : ServerPolicy)
    (hello : ClientHello) (version : Version) (suite : CipherSuite) (random : HelloRandom) :
    (terms.answering policy hello version suite random).parameters.Sensible :=
  h.foldl_extended _

namespace Session

variable {κ : Type} (session : Session κ)

theorem exists_applyExtension {entry : UInt16 × Bytes} (h : ExtensionMap.WellFormed entry) :
    ∃ after, session.applyExtension entry.1 entry.2 = .ok after := by
  rw [ExtensionMap.WellFormed] at h
  rw [applyExtension]
  split at h
  · next hcode =>
    rw [hcode]
    exact ⟨_, rfl⟩
  · next hcode =>
    obtain ⟨length, hlength⟩ := h
    rw [hcode, hlength]
    exact ⟨_, rfl⟩
  · next type hother hcode =>
    rw [hcode, h]
    cases type with
    | maxFragmentLength => exact absurd rfl hother
    | truncatedHmac => exact ⟨_, rfl⟩
    | encryptThenMac => exact ⟨_, rfl⟩

theorem applyExtensions_of_wellFormed {entries : List (UInt16 × Bytes)}
    (h : ∀ entry ∈ entries, ExtensionMap.WellFormed entry) : (session.applyExtensions entries).1 = .ok () := by
  induction entries generalizing session with
  | nil => rfl
  | cons entry rest ih =>
    obtain ⟨type, data⟩ := entry
    obtain ⟨after, happly⟩ := exists_applyExtension session (h _ List.mem_cons_self)
    simp only [applyExtensions, happly]
    exact ih after fun other hmem => h other (List.mem_cons_of_mem _ hmem)

theorem applyServerHello_answering {policy : ServerPolicy} {hello : ClientHello} {version : Version} {suite : CipherSuite}
    {random : HelloRandom} (h : ∀ entry ∈ hello.extensions.entries, ExtensionMap.WellFormed entry) :
    session.applyServerHello (policy.answering hello version suite random) =
      (.ok (), session.withTerms (session.terms.answering policy hello version suite random)) := by
  have hwellFormed : ∀ entry ∈ (policy.chooseExtensions suite hello.extensions).entries, ExtensionMap.WellFormed entry :=
    fun entry hmem => h entry ((policy.sublist_chooseExtensions suite hello.extensions).subset hmem)
  have hok := applyExtensions_of_wellFormed session hwellFormed
  obtain ⟨parameters, hafter, hparameters⟩ :=
    session.applyExtensions_eq (policy.chooseExtensions suite hello.extensions).entries
  obtain rfl := hparameters hok
  have hboth : session.applyExtensions (policy.chooseExtensions suite hello.extensions).entries = (.ok (), _) :=
    Prod.ext hok hafter
  simp only [applyServerHello, ServerPolicy.answering, Version.ofCode?_code, CipherSuite.ofCode?_code, hboth]
  rfl

end Session

end PresharedTls
