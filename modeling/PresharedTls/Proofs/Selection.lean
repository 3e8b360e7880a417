import PresharedTls.Proofs.Endpoint.Bargain

/-!
# What a server selects

A server looks for a version, then for a suite that can be used with it, and then for the extensions that go with
the suite. Each of these choices is determined by the hello and the policy, and it fails only where there is
nothing to choose. A client that is answered in its own version has no reason to refuse.
-/

namespace PresharedTls

namespace Version

variable {offered : UInt16} {maximum : Version}

/-- There is no gap between the versions. -/
theorem exists_code_eq (hfirst : tls10.code ≤ offered) (hbelow : offered < maximum.code) :
    ∃ version : Version, version.code = offered := by
  have hlast : maximum.code ≤ tls12.code := by cases maximum <;> decide
  have hlower : 0x0301 ≤ offered.toNat := UInt16.le_iff_toNat_le.mp hfirst
  have hupper : offered.toNat < 0x0303 := UInt16.lt_iff_toNat_lt.mp (UInt16.lt_of_lt_of_le hbelow hlast)
  have hcases : offered.toNat = 0x0301 ∨ offered.toNat = 0x0302 := by omega
  rcases hcases with hcode | hcode
  · exact ⟨tls10, UInt16.toNat_inj.mp hcode.symm⟩
  · exact ⟨tls11, UInt16.toNat_inj.mp hcode.symm⟩

/-- Whatever is offered from the first version on is answered in the older of the two versions. -/
theorem exists_negotiate (hfirst : tls10.code ≤ offered) (maximum : Version) : ∃ version : Version,
    negotiate offered maximum = some version ∧ version.code.toNat = min offered.toNat maximum.code.toNat := by
  rw [negotiate, if_neg (UInt16.not_lt.mpr hfirst)]
  by_cases hnewer : maximum.code ≤ offered
  · exact ⟨maximum, if_pos hnewer, (Nat.min_eq_right (UInt16.le_iff_toNat_le.mp hnewer)).symm⟩
  · have hbelow : offered < maximum.code := UInt16.not_le.mp hnewer
    obtain ⟨version, rfl⟩ := exists_code_eq hfirst hbelow
    refine ⟨version, by rw [if_neg hnewer, ofCode?_code], ?_⟩
    exact (Nat.min_eq_left (UInt16.le_iff_toNat_le.mp (UInt16.le_of_lt hbelow))).symm

end Version

namespace ServerPolicy

/-- The number of the older of the two versions that client and server go up to. -/
def commonVersion (policy : ServerPolicy) (hello : ClientHello) : Nat :=
  min hello.version.toNat policy.maximumVersion.code.toNat

/-- There is a version in which the server would answer. -/
def Speaks (policy : ServerPolicy) (hello : ClientHello) : Prop :=
  0x0301 ≤ hello.version.toNat ∧ policy.minimumVersion.code.toNat ≤ policy.commonVersion hello

/-- The server supports the suite, and it is not too new for the version of the answer. -/
def Usable (policy : ServerPolicy) (hello : ClientHello) (suite : CipherSuite) : Prop :=
  suite ∈ policy.suites ∧ suite.minimumVersion.code.toNat ≤ policy.commonVersion hello

/-- The answer that is due to a hello. -/
structure Selected (policy : ServerPolicy) (hello : ClientHello) (answer : ServerHello) : Prop where
  version : answer.version.toNat = policy.commonVersion hello
  /-- The suite is the first in the client's order that can be used, and the extensions are those of the client
  that the server supports, without encrypt-then-MAC where there is nothing to encrypt. -/
  choice : ∃ suite earlier later, hello.suites = earlier ++ suite :: later ∧ policy.Usable hello suite ∧
    (∀ other ∈ earlier, ¬ policy.Usable hello other) ∧ answer.suite = suite.code ∧
    ∀ entry, entry ∈ answer.extensions.entries ↔ entry ∈ hello.extensions.entries ∧
      (∃ type ∈ policy.extensions, type.code = entry.1) ∧
      (entry.1 = ExtensionType.encryptThenMac.code → suite.bulkCipher ≠ .null)

/-- A server that answers where it can and as it should, and whose answers its clients accept. -/
structure Selects (policy : ServerPolicy) : Prop where
  answers_iff : ∀ hello entropy, (∃ answer after, policy.answer hello entropy = .ok (answer, after)) ↔
    policy.Speaks hello ∧ ∃ suite ∈ hello.suites, policy.Usable hello suite
  refuses_version : ∀ hello entropy, ¬ policy.Speaks hello → policy.answer hello entropy = .error .protocolVersion
  refuses_suites : ∀ hello entropy, policy.Speaks hello → (∀ suite ∈ hello.suites, ¬ policy.Usable hello suite) →
    policy.answer hello entropy = .error .illegalParameter
  selected : ∀ hello entropy answer after, policy.answer hello entropy = .ok (answer, after) →
    policy.Selected hello answer
  /-- A client that is answered in its version accepts the answer to its own hello. -/
  accepted : ∀ (offer : ClientOffer) entropy entropy' answer after,
    policy.answer (offer.hello entropy).1 entropy' = .ok (answer, after) → answer.version = offer.version.code →
    offer.check answer = .ok ()

variable {policy : ServerPolicy} {hello : ClientHello} {version : Version} {suite : CipherSuite}

/-! ### The choices -/

theorem chooseVersion_of_speaks (h : policy.Speaks hello) :
    ∃ version : Version, policy.chooseVersion hello.version = .ok version ∧
      version.code.toNat = policy.commonVersion hello := by
  obtain ⟨hfirst, hminimum⟩ := h
  obtain ⟨version, hnegotiate, hcode⟩ :=
    Version.exists_negotiate (UInt16.le_iff_toNat_le.mpr hfirst) policy.maximumVersion
  have hinRange : policy.minimumVersion ≤ version := UInt16.le_iff_toNat_le.mpr (hcode.symm ▸ hminimum)
  refine ⟨version, ?_, hcode⟩
  simp only [chooseVersion, hnegotiate, if_neg (Version.not_lt.mpr hinRange)]

theorem chooseVersion_of_not_speaks (h : ¬ policy.Speaks hello) :
    policy.chooseVersion hello.version = .error .protocolVersion := by
  by_cases hfirst : Version.tls10.code ≤ hello.version
  · obtain ⟨version, hnegotiate, hcode⟩ := Version.exists_negotiate hfirst policy.maximumVersion
    have hbelow : version < policy.minimumVersion := by
      refine UInt16.not_le.mp fun hminimum => h ⟨UInt16.le_iff_toNat_le.mp hfirst, ?_⟩
      rw [commonVersion, ← hcode]
      exact UInt16.le_iff_toNat_le.mp hminimum
    simp only [chooseVersion, hnegotiate, if_pos hbelow]
  · have hnone : Version.negotiate hello.version policy.maximumVersion = none := if_pos (UInt16.not_le.mp hfirst)
    simp only [chooseVersion, hnone]

theorem accepts_iff_usable (hcode : version.code.toNat = policy.commonVersion hello) :
    policy.accepts version suite = true ↔ policy.Usable hello suite := by
  rw [accepts, Bool.and_eq_true, List.contains_iff_mem, decide_eq_true_eq, Usable, ← hcode]
  exact and_congr_right fun _ => UInt16.le_iff_toNat_le

theorem mem_chooseExtensions_iff {offered : ExtensionMap} {entry : UInt16 × Bytes} :
    entry ∈ (policy.chooseExtensions suite offered).entries ↔ entry ∈ offered.entries ∧
      (∃ type ∈ policy.extensions, type.code = entry.1) ∧
      (entry.1 = ExtensionType.encryptThenMac.code → suite.bulkCipher ≠ .null) := by
  have hechoes : policy.echoes entry.1 = true ↔ ∃ type ∈ policy.extensions, type.code = entry.1 := by
    simp [echoes, List.any_eq_true]
  have hechoed : entry ∈ (offered.filter policy.echoes).entries ↔
      entry ∈ offered.entries ∧ ∃ type ∈ policy.extensions, type.code = entry.1 :=
    List.mem_filter.trans (and_congr_right fun _ => hechoes)
  unfold chooseExtensions
  by_cases hbulk : suite.bulkCipher = .null
  · rw [if_neg (by simp [CipherSuite.hasBulkCipher, hbulk])]
    refine List.mem_filter.trans ?_
    rw [hechoed, decide_eq_true_eq, and_assoc]
    exact and_congr_right fun _ => and_congr_right fun _ => ⟨fun h heq => absurd heq h, fun h heq => h heq hbulk⟩
  · rw [if_pos (by simpa [CipherSuite.hasBulkCipher] using hbulk), hechoed]
    exact ⟨fun h => ⟨h.1, h.2, fun _ => hbulk⟩, fun h => ⟨h.1, h.2.1⟩⟩

/-! ### The answer -/

/-- Where there is a version, the first usable suite makes the answer, or there is none. -/
theorem answer_of_speaks (h : policy.Speaks hello) (entropy : Entropy) :
    (∃ version suite earlier later, version.code.toNat = policy.commonVersion hello ∧
      hello.suites = earlier ++ suite :: later ∧ policy.Usable hello suite ∧
      (∀ other ∈ earlier, ¬ policy.Usable hello other) ∧
      policy.answer hello entropy =
        .ok (policy.answering hello version suite (entropy.draw 32).1, (entropy.draw 32).2)) ∨
    (∀ suite ∈ hello.suites, ¬ policy.Usable hello suite) ∧
      policy.answer hello entropy = .error .illegalParameter := by
  obtain ⟨version, hversion, hcode⟩ := chooseVersion_of_speaks h
  cases hfound : hello.suites.find? (policy.accepts version) with
  | none =>
    refine .inr ⟨fun suite hmem husable => ?_, answer_of_no_suite hversion hfound entropy⟩
    exact List.find?_eq_none.mp hfound suite hmem ((accepts_iff_usable hcode).mpr husable)
  | some suite =>
    obtain ⟨haccepted, earlier, later, hsplit, hrejected⟩ := List.find?_eq_some_iff_append.mp hfound
    refine .inl ⟨version, suite, earlier, later, hcode, hsplit, (accepts_iff_usable hcode).mp haccepted, ?_,
      answer_of_chosen policy hello hversion hfound entropy⟩
    intro other hmem husable
    have hrejected := hrejected other hmem
    rw [(accepts_iff_usable hcode).mpr husable] at hrejected
    cases hrejected

theorem answer_of_not_speaks (h : ¬ policy.Speaks hello) (entropy : Entropy) :
    policy.answer hello entropy = .error .protocolVersion :=
  answer_of_no_version (chooseVersion_of_not_speaks h) entropy

theorem speaks_of_answer {entropy : Entropy} {answer : ServerHello × Entropy} (h : policy.answer hello entropy = .ok answer) :
    policy.Speaks hello := by
  refine Classical.byContradiction fun hspeechless => ?_
  cases h.symm.trans (answer_of_not_speaks hspeechless entropy)

theorem selected_of_answer {entropy after : Entropy} {answer : ServerHello}
    (h : policy.answer hello entropy = .ok (answer, after)) : policy.Selected hello answer := by
  rcases answer_of_speaks (speaks_of_answer h) entropy with
    ⟨version, suite, earlier, later, hcode, hsplit, husable, hfirst, hanswer⟩ | ⟨-, hnone⟩
  · obtain ⟨rfl, -⟩ := Prod.mk.inj (Except.ok.inj (h.symm.trans hanswer))
    exact ⟨hcode, suite, earlier, later, hsplit, husable, hfirst, rfl, fun _ => mem_chooseExtensions_iff⟩
  · cases h.symm.trans hnone

/-- The client finds its version, a suite of its own and extensions as it sent them. -/
theorem check_of_answer {offer : ClientOffer} {entropy entropy' after : Entropy} {answer : ServerHello}
    (h : policy.answer (offer.hello entropy).1 entropy' = .ok (answer, after))
    (hversion : answer.version = offer.version.code) : offer.check answer = .ok () := by
  obtain ⟨version, suite, -, hsuite, hmade⟩ := of_answer h
  obtain rfl : answer = policy.answering (offer.hello entropy).1 version suite (entropy'.draw 32).1 := hmade
  have hoffered : suite ∈ offer.suites := (of_chooseSuite hsuite).2.1
  rw [ClientOffer.check_answering rfl hoffered, if_pos (Version.code_injective hversion)]

/-- **A server answers exactly where client and server have a version and a suite in common.** Its answer has the
older of their two versions, the client's first usable suite and the client's extensions as far as they are
supported, and a client that is answered in its own version accepts it. -/
theorem selects (policy : ServerPolicy) : policy.Selects where
  answers_iff hello entropy := by
    constructor
    · rintro ⟨answer, after, h⟩
      obtain ⟨-, suite, earlier, later, hsplit, husable, -⟩ := selected_of_answer h
      exact ⟨speaks_of_answer h, suite, hsplit ▸ List.mem_append_right _ List.mem_cons_self, husable⟩
    · rintro ⟨hspeaks, suite, hmem, husable⟩
      rcases answer_of_speaks hspeaks entropy with ⟨version, chosen, -, -, -, -, -, -, hanswer⟩ | ⟨hnone, -⟩
      · exact ⟨_, _, hanswer⟩
      · exact absurd husable (hnone suite hmem)
  refuses_version hello entropy h := answer_of_not_speaks h entropy
  refuses_suites hello entropy hspeaks hnone := by
    rcases answer_of_speaks hspeaks entropy with ⟨-, suite, earlier, later, -, hsplit, husable, -⟩ | ⟨-, hrefused⟩
    · exact absurd husable (hnone suite (hsplit ▸ List.mem_append_right _ List.mem_cons_self))
    · exact hrefused
  selected hello entropy answer after h := selected_of_answer h
  accepted offer entropy entropy' answer after h hversion := check_of_answer h hversion

end ServerPolicy

end PresharedTls
