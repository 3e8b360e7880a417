import PresharedTls.Proofs.Endpoint.Outline
import PresharedTls.Proofs.Negotiated

/-!
# Bargains

What an endpoint brings to a connection, and what has been settled there so far. Only the hello messages
and the client's identity change it. Whatever a peer puts into those, a client settles for nothing that it
did not offer, and a server for nothing outside its policy or the hello it heard, and that holds too where
an answer is taken over in part before it is refused.
-/

namespace PresharedTls

variable {κ α : Type}

/-! ### Parameters -/

namespace Parameters

/-- The extension of that type has taken effect. -/
def Activates (parameters : Parameters) : ExtensionType → Prop
  | .maxFragmentLength => parameters.plaintextLimit ≠ maximumPlaintext
  | .truncatedHmac => parameters.truncatedHmac = true
  | .encryptThenMac => parameters.encryptThenMac = true

/-- The parameters are as `entries` ask for, or as they are without any extension. -/
structure Within (parameters : Parameters) (entries : List (UInt16 × Bytes)) : Prop where
  plaintextLimit : parameters.plaintextLimit = maximumPlaintext ∨
    ∃ data length, (ExtensionType.maxFragmentLength.code, data) ∈ entries ∧
      MaxFragmentLength.ofBytes data = .ok length ∧ parameters.plaintextLimit = length.limit
  truncatedHmac : parameters.truncatedHmac = true → ∃ data, (ExtensionType.truncatedHmac.code, data) ∈ entries
  encryptThenMac : parameters.encryptThenMac = true → ∃ data, (ExtensionType.encryptThenMac.code, data) ∈ entries

variable {parameters : Parameters} {entries more : List (UInt16 × Bytes)}

theorem within_start (entries : List (UInt16 × Bytes)) : start.Within entries :=
  ⟨.inl rfl, nofun, nofun⟩

theorem Within.extended (h : parameters.Within entries) {entry : UInt16 × Bytes} (hentry : entry ∈ entries) :
    (parameters.extended entry).Within entries := by
  obtain ⟨type, data⟩ := entry
  obtain ⟨hlimit, htruncated, hencrypt⟩ := h
  rw [Parameters.extended]
  split
  · next length htype hlength =>
    obtain rfl := ExtensionType.code_of_ofCode? htype
    exact ⟨.inr ⟨data, length, hentry, hlength, rfl⟩, htruncated, hencrypt⟩
  · next htype =>
    obtain rfl := ExtensionType.code_of_ofCode? htype
    exact ⟨hlimit, htruncated, fun _ => ⟨data, hentry⟩⟩
  · next htype =>
    obtain rfl := ExtensionType.code_of_ofCode? htype
    exact ⟨hlimit, fun _ => ⟨data, hentry⟩, hencrypt⟩
  · exact ⟨hlimit, htruncated, hencrypt⟩

theorem Within.mono (h : parameters.Within entries) (hmore : ∀ entry ∈ entries, entry ∈ more) :
    parameters.Within more := by
  obtain ⟨hlimit, htruncated, hencrypt⟩ := h
  refine ⟨hlimit.imp_right ?_, fun hactive => ?_, fun hactive => ?_⟩
  · rintro ⟨data, length, hmem, hlength⟩
    exact ⟨data, length, hmore _ hmem, hlength⟩
  · obtain ⟨data, hmem⟩ := htruncated hactive
    exact ⟨data, hmore _ hmem⟩
  · obtain ⟨data, hmem⟩ := hencrypt hactive
    exact ⟨data, hmore _ hmem⟩

theorem Within.mem_of_activates (h : parameters.Within entries) {type : ExtensionType} (hactive : parameters.Activates type) :
    ∃ data, (type.code, data) ∈ entries := by
  cases type with
  | truncatedHmac => exact h.truncatedHmac hactive
  | encryptThenMac => exact h.encryptThenMac hactive
  | maxFragmentLength =>
    obtain ⟨data, -, hmem, -⟩ := h.plaintextLimit.resolve_left hactive
    exact ⟨data, hmem⟩

end Parameters

/-- Extensions that are asked for change the parameters to what is asked for, also where one of them is malformed. -/
theorem Session.within_applyExtensions {session : Session κ} {entries allowed : List (UInt16 × Bytes)}
    (hentries : ∀ entry ∈ entries, entry ∈ allowed) (h : session.parameters.Within allowed) :
    ∃ parameters : Parameters, parameters.Within allowed ∧
      (session.applyExtensions entries).2 = session.withParameters parameters := by
  induction entries generalizing session with
  | nil => exact ⟨session.parameters, h, rfl⟩
  | cons entry rest ih =>
    obtain ⟨type, data⟩ := entry
    rw [applyExtensions]
    cases happly : session.applyExtension type data with
    | error alert => exact ⟨session.parameters, h, rfl⟩
    | ok after =>
      obtain rfl := applyExtension_of_ok happly
      exact ih (fun entry hmem => hentries entry (List.mem_cons_of_mem _ hmem)) (h.extended (hentries _ List.mem_cons_self))

/-- An answer is taken over with version and suite, or only its extensions are, and those up to a malformed one. -/
theorem Session.applyServerHello_cases (session : Session κ) (answer : ServerHello) {allowed : List (UInt16 × Bytes)}
    (hanswer : ∀ entry ∈ answer.extensions.entries, entry ∈ allowed) (h : session.parameters.Within allowed) :
    ∃ parameters : Parameters, parameters.Within allowed ∧
      ((session.applyServerHello answer).2 = session.withParameters parameters ∨
        ∃ version suite, Version.ofCode? answer.version = some version ∧ CipherSuite.ofCode? answer.suite = some suite ∧
          (session.applyServerHello answer).2 = { session.withParameters parameters with
            version := version
            suite := some suite
            serverRandom := some answer.random }) := by
  rw [applyServerHello]
  cases hversion : Version.ofCode? answer.version with
  | none => exact ⟨session.parameters, h, .inl rfl⟩
  | some version =>
    cases hsuite : CipherSuite.ofCode? answer.suite with
    | none => exact ⟨session.parameters, h, .inl rfl⟩
    | some suite =>
      obtain ⟨parameters, hparameters, hafter⟩ := within_applyExtensions hanswer h
      rcases hrun : session.applyExtensions answer.extensions.entries with ⟨_ | _, after⟩
      · rw [hrun] at hafter
        exact ⟨parameters, hparameters, .inl hafter⟩
      · rw [hrun] at hafter
        obtain rfl : after = session.withParameters parameters := hafter
        exact ⟨parameters, hparameters, .inr ⟨version, suite, rfl, rfl, rfl⟩⟩

/-! ### Choices -/

theorem ExtensionType.code_injective {type other : ExtensionType} (h : type.code = other.code) : type = other := by
  have hsame : ofCode? type.code = ofCode? other.code := by rw [h]
  simpa using hsame

theorem Version.le_of_negotiate {offered : UInt16} {maximum version : Version} (h : negotiate offered maximum = some version) :
    version ≤ maximum ∧ version.code ≤ offered := by
  rw [negotiate] at h
  split at h
  · cases h
  · split at h
    · next hoffered =>
      obtain rfl := Option.some.inj h
      exact ⟨UInt16.le_refl _, hoffered⟩
    · next hbelow =>
      obtain rfl := Version.code_of_ofCode? h
      exact ⟨UInt16.le_of_lt (UInt16.not_le.mp hbelow), UInt16.le_refl _⟩

namespace ServerPolicy

variable {policy : ServerPolicy} {hello : ClientHello} {version : Version} {suite : CipherSuite}

theorem of_chooseVersion {offered : UInt16} (h : policy.chooseVersion offered = .ok version) :
    policy.minimumVersion ≤ version ∧ version ≤ policy.maximumVersion ∧ version.code ≤ offered := by
  rw [chooseVersion] at h
  split at h
  · cases h
  · next hnegotiate =>
    split at h
    · cases h
    · next hminimum =>
      obtain rfl := Except.ok.inj h
      exact ⟨Version.not_lt.mp hminimum, Version.le_of_negotiate hnegotiate⟩

theorem of_chooseSuite {offered : List CipherSuite} (h : policy.chooseSuite version offered = .ok suite) :
    suite ∈ policy.suites ∧ suite ∈ offered ∧ suite.minimumVersion ≤ version := by
  rw [chooseSuite] at h
  split at h
  · cases h
  · next hfound =>
    obtain rfl := Except.ok.inj h
    have haccepted := List.find?_some hfound
    rw [accepts, Bool.and_eq_true, decide_eq_true_eq, List.contains_iff_mem] at haccepted
    exact ⟨haccepted.1, List.mem_of_find?_eq_some hfound, haccepted.2⟩

theorem of_mem_chooseExtensions {offered : ExtensionMap} {entry : UInt16 × Bytes}
    (h : entry ∈ (policy.chooseExtensions suite offered).entries) :
    entry ∈ offered.entries ∧ policy.echoes entry.1 = true ∧
      (suite.hasBulkCipher = false → entry.1 ≠ ExtensionType.encryptThenMac.code) := by
  rw [chooseExtensions] at h
  split at h
  · next hbulk =>
    obtain ⟨hoffered, hechoes⟩ := List.mem_filter.mp h
    exact ⟨hoffered, hechoes, fun hnull => absurd hbulk (by rw [hnull]; decide)⟩
  · obtain ⟨hkept, htype⟩ := List.mem_filter.mp h
    obtain ⟨hoffered, hechoes⟩ := List.mem_filter.mp hkept
    exact ⟨hoffered, hechoes, fun _ => of_decide_eq_true htype⟩

theorem mem_of_echoes {type : ExtensionType} (h : policy.echoes type.code = true) : type ∈ policy.extensions := by
  obtain ⟨other, hmem, hcode⟩ := List.any_eq_true.mp h
  exact ExtensionType.code_injective (of_decide_eq_true hcode) ▸ hmem

/-- An answer is made of the three choices. -/
theorem of_answer {entropy : Entropy} {answer : ServerHello × Entropy} (h : policy.answer hello entropy = .ok answer) :
    ∃ version suite, policy.chooseVersion hello.version = .ok version ∧
      policy.chooseSuite version hello.suites = .ok suite ∧
      answer.1 = policy.answering hello version suite (entropy.draw 32).1 := by
  rw [ServerPolicy.answer] at h
  cases hversion : policy.chooseVersion hello.version with
  | error alert =>
    rw [hversion] at h
    cases h
  | ok version =>
    rw [hversion] at h
    change (policy.chooseSuite version hello.suites >>= _) = _ at h
    cases hsuite : policy.chooseSuite version hello.suites with
    | error alert =>
      rw [hsuite] at h
      cases h
    | ok suite =>
      rw [hsuite] at h
      obtain rfl := Except.ok.inj h
      exact ⟨version, suite, rfl, hsuite, rfl⟩

end ServerPolicy

/-! ### What may be settled -/

/-- Terms that a client has offered. -/
structure ClientOffer.Allows (offer : ClientOffer) (terms : Terms) : Prop where
  version : terms.version = offer.version
  suite : ∀ suite, terms.suite = some suite → suite ∈ offer.suites
  parameters : terms.parameters.Within offer.extensions.entries

/-- Terms with a suite that a server may come to by its policy with a client's hello. -/
structure ServerPolicy.Allows (policy : ServerPolicy) (hello : ClientHello) (suite : CipherSuite) (terms : Terms) :
    Prop where
  supported : suite ∈ policy.suites
  offered : suite ∈ hello.suites
  minimumVersion_suite : suite.minimumVersion ≤ terms.version
  minimumVersion : policy.minimumVersion ≤ terms.version
  maximumVersion : terms.version ≤ policy.maximumVersion
  version : terms.version.code ≤ hello.version
  extensions : ∀ type, terms.parameters.Activates type →
    type ∈ policy.extensions ∧ ∃ data, (type.code, data) ∈ hello.extensions.entries
  plaintextLimit : terms.parameters.plaintextLimit = maximumPlaintext ∨
    ∃ data length, (ExtensionType.maxFragmentLength.code, data) ∈ hello.extensions.entries ∧
      MaxFragmentLength.ofBytes data = .ok length ∧ terms.parameters.plaintextLimit = length.limit
  encryptThenMac : suite.hasBulkCipher = false → terms.parameters.encryptThenMac = false

/-- The policy does not ask who the client is. -/
theorem ServerPolicy.Allows.withIdentity {policy : ServerPolicy} {hello : ClientHello} {suite : CipherSuite} {terms : Terms}
    (h : policy.Allows hello suite terms) (identity : Bytes) : policy.Allows hello suite (terms.withIdentity identity) :=
  ⟨h.supported, h.offered, h.minimumVersion_suite, h.minimumVersion, h.maximumVersion, h.version, h.extensions,
    h.plaintextLimit, h.encryptThenMac⟩

theorem ServerPolicy.allows_of_chosen {policy : ServerPolicy} {hello : ClientHello} {version : Version} {suite : CipherSuite}
    {terms : Terms} (hversion : policy.chooseVersion hello.version = .ok version)
    (hsuite : policy.chooseSuite version hello.suites = .ok suite) (hterms : terms.version = version)
    (hparameters : terms.parameters.Within (policy.chooseExtensions suite hello.extensions).entries) :
    policy.Allows hello suite terms := by
  subst hterms
  obtain ⟨hminimum, hmaximum, hoffered⟩ := of_chooseVersion hversion
  obtain ⟨hsupported, hlisted, hsuiteMinimum⟩ := of_chooseSuite hsuite
  refine ⟨hsupported, hlisted, hsuiteMinimum, hminimum, hmaximum, hoffered, fun type hactive => ?_, ?_, fun hnull => ?_⟩
  · obtain ⟨data, hmem⟩ := hparameters.mem_of_activates hactive
    obtain ⟨hasked, hechoes, -⟩ := of_mem_chooseExtensions hmem
    exact ⟨mem_of_echoes hechoes, data, hasked⟩
  · exact (hparameters.mono fun entry hmem => (of_mem_chooseExtensions hmem).1).plaintextLimit
  · refine Bool.eq_false_iff.mpr fun hactive => ?_
    obtain ⟨data, hmem⟩ := hparameters.encryptThenMac hactive
    exact (of_mem_chooseExtensions hmem).2.2 hnull rfl

/-- A client that has checked an answer takes nothing else over from it. -/
theorem ClientOffer.Allows.applyServerHello {offer : ClientOffer} {session : Session κ} {answer : ServerHello}
    (h : offer.Allows session.terms) (hcheck : offer.check answer = .ok ()) :
    offer.Allows (session.applyServerHello answer).2.terms := by
  rw [check] at hcheck
  split at hcheck
  · cases hcheck
  next hversion =>
  split at hcheck
  · cases hcheck
  next hoffered =>
  split at hcheck
  case isFalse => cases hcheck
  next hcovered =>
  rw [Decidable.not_not] at hversion hoffered
  have hentries : ∀ entry ∈ answer.extensions.entries, entry ∈ offer.extensions.entries := fun entry hmem =>
    ExtensionMap.get?_eq_some_iff.mp (of_decide_eq_true (List.all_eq_true.mp hcovered entry hmem))
  obtain ⟨parameters, hparameters, hsession | ⟨version, suite, hread, hnamed, hsession⟩⟩ :=
    session.applyServerHello_cases answer hentries h.parameters
  · rw [hsession]
    exact ⟨h.version, h.suite, hparameters⟩
  · rw [hsession]
    refine ⟨?_, fun other hother => ?_, hparameters⟩
    · rw [hversion, Version.ofCode?_code] at hread
      exact (Option.some.inj hread).symm
    · obtain rfl : suite = other := Option.some.inj hother
      obtain ⟨known, hknown, hcode⟩ := List.any_eq_true.mp hoffered
      rw [← of_decide_eq_true hcode, CipherSuite.ofCode?_code] at hnamed
      exact Option.some.inj hnamed ▸ hknown

/-- A server that has settled nothing before settles what its policy has chosen, or no suite. -/
theorem ServerPolicy.allows_applyServerHello {policy : ServerPolicy} {hello : ClientHello} {entropy : Entropy}
    {answer : ServerHello × Entropy} (session : Session κ) (hanswer : policy.answer hello entropy = .ok answer)
    (hsuite : session.suite = none) (hparameters : session.parameters = .start) :
    (session.applyServerHello answer.1).2.key = session.key ∧
      (session.applyServerHello answer.1).2.identity = session.identity ∧
      ∀ suite, (session.applyServerHello answer.1).2.suite = some suite →
        policy.Allows hello suite (session.applyServerHello answer.1).2.terms := by
  obtain ⟨chosen, suite, hchosen, hnamed, hmade⟩ := of_answer hanswer
  rw [hmade]
  obtain ⟨parameters, hwithin, hafter | ⟨version, named, hversion, hread, hafter⟩⟩ :=
    session.applyServerHello_cases (policy.answering hello chosen suite (entropy.draw 32).1) (fun _ => id)
      (hparameters ▸ Parameters.within_start _)
  · rw [hafter]
    refine ⟨rfl, rfl, fun other hother => ?_⟩
    cases hsuite.symm.trans hother
  · rw [answering, Version.ofCode?_code] at hversion
    rw [answering, CipherSuite.ofCode?_code] at hread
    obtain rfl := Option.some.inj hversion
    obtain rfl := Option.some.inj hread
    rw [hafter]
    refine ⟨rfl, rfl, fun other hother => ?_⟩
    obtain rfl : suite = other := Option.some.inj hother
    exact allows_of_chosen hchosen hnamed rfl hwithin

/-- The side that an endpoint takes, and what it has settled there. -/
structure Bargain where
  side : Side
  terms : Terms
  key : Option Bytes

namespace Bargain

/-- Neither side's settings forbid the bargain, where `first` is the first message that came. A server has
no suite before there is one, and no key but the one of the identity. -/
def Allowed (first : Option HandshakeMessage) (bargain : Bargain) : Prop :=
  match bargain.side with
  | .client offer => offer.Allows bargain.terms
  | .server policy =>
    (∀ key, bargain.key = some key → policy.resolve bargain.terms.identity = some key) ∧
    ∀ suite, bargain.terms.suite = some suite → ∃ message hello, first = some message ∧
      message.type = .clientHello ∧ ClientHello.ofBytes? message.body = some hello ∧
      policy.Allows hello suite bargain.terms

/-- Nothing that came has had an effect on the bargain. -/
def Untouched (bargain : Bargain) : Prop :=
  bargain.terms.suite = none ∧ bargain.terms.parameters = .start

variable {bargain : Bargain} {first : Option HandshakeMessage}

theorem allowed_client {offer : ClientOffer} (hside : bargain.side = .client offer) :
    bargain.Allowed first ↔ offer.Allows bargain.terms := by
  rw [Allowed, hside]

theorem allowed_server {policy : ServerPolicy} (hside : bargain.side = .server policy) :
    bargain.Allowed first ↔
      (∀ key, bargain.key = some key → policy.resolve bargain.terms.identity = some key) ∧
      ∀ suite, bargain.terms.suite = some suite → ∃ message hello, first = some message ∧
        message.type = .clientHello ∧ ClientHello.ofBytes? message.body = some hello ∧
        policy.Allows hello suite bargain.terms := by
  rw [Allowed, hside]

/-- Messages that come later change nothing about the first. -/
theorem Allowed.later (h : bargain.Allowed first) (message : Option HandshakeMessage) :
    bargain.Allowed (first.or message) := by
  cases hside : bargain.side with
  | client offer =>
    rw [allowed_client hside] at h ⊢
    exact h
  | server policy =>
    rw [allowed_server hside] at h ⊢
    refine ⟨h.1, fun suite hsuite => ?_⟩
    obtain ⟨hello, rest, rfl, hread⟩ := h.2 suite hsuite
    exact ⟨hello, rest, rfl, hread⟩

end Bargain

namespace Endpoint

def bargain (endpoint : Endpoint κ) : Bargain where
  side := endpoint.side
  terms := endpoint.session.terms
  key := endpoint.session.key

variable {endpoint : Endpoint κ} {bargain : Bargain} {first : Option HandshakeMessage}

theorem allowed_of_client {offer : ClientOffer} (hside : endpoint.side = .client offer)
    (h : offer.Allows endpoint.session.terms) : endpoint.bargain.Allowed first :=
  (Bargain.allowed_client hside).mpr h

theorem allowed_of_server {policy : ServerPolicy} (hside : endpoint.side = .server policy)
    (hkey : ∀ key, endpoint.session.key = some key → policy.resolve endpoint.session.identity = some key)
    (hsuite : ∀ suite, endpoint.session.suite = some suite → ∃ message hello, first = some message ∧
      message.type = .clientHello ∧ ClientHello.ofBytes? message.body = some hello ∧
      policy.Allows hello suite endpoint.session.terms) : endpoint.bargain.Allowed first :=
  (Bargain.allowed_server hside).mpr ⟨hkey, hsuite⟩

/-! ### Steps that settle nothing -/

/-- A step that leaves the bargain as it is, whether it fails or not. -/
abbrev KeepsBargain (bargain : Bargain) (step : Step κ α) : Prop :=
  Keeps (fun endpoint => endpoint.bargain = bargain) (fun endpoint => endpoint.bargain = bargain) step

theorem keepsBargain_accept (result : Except AlertDescription α) : KeepsBargain bargain (accept result : Step κ α) :=
  fun _ h => ends_accept (fun _ _ => h) fun _ _ => h

theorem keepsBargain_remember (message : HandshakeMessage) : KeepsBargain bargain (remember (κ := κ) message) :=
  Keeps.modify fun _ h => h

theorem keepsBargain_sendRecord (type : ContentType) (plaintext : Bytes) :
    KeepsBargain bargain (sendRecord (κ := κ) type plaintext) :=
  fun endpoint h => ends_of_onlySent (keepsOnlySent_sendRecord endpoint type plaintext) (fun _ _ _ _ => h) fun _ _ _ _ => h

theorem keepsBargain_sendFragmented (type : ContentType) (b : Bytes) :
    KeepsBargain bargain (sendFragmented (κ := κ) type b) :=
  Keeps.get_bind fun _ _ => Keeps.forM (keepsBargain_sendRecord type) _

theorem keepsBargain_sendMessage (message : HandshakeMessage) : KeepsBargain bargain (sendMessage (κ := κ) message) :=
  Keeps.bind (keepsBargain_accept _) fun _ => Keeps.bind (Keeps.modify fun _ h => h) fun _ =>
    keepsBargain_sendFragmented _ _

theorem keepsBargain_sendChangeCipherSpec : KeepsBargain bargain (sendChangeCipherSpec (κ := κ)) :=
  fun _ h => ends_of_onlySent keepsOnlySent_sendChangeCipherSpec (fun _ _ _ _ => h) fun _ _ _ _ => h

theorem keepsBargain_sendFinished : KeepsBargain bargain (sendFinished (κ := κ)) :=
  Keeps.get_bind fun _ _ => Keeps.bind (keepsBargain_accept _) fun _ => keepsBargain_sendMessage _

theorem keepsBargain_receiveFinished (message : HandshakeMessage) :
    KeepsBargain bargain (receiveFinished (κ := κ) message) :=
  fun _ h => ends_receiveFinished h fun _ => h

/-! ### Handshake messages -/

/-- A step that goes on, with an allowed bargain, to a phase behind the hello messages, or fails and leaves
an allowed bargain. -/
abbrev Settles (first : Option HandshakeMessage) (step : Step κ α) (endpoint : Endpoint κ) : Prop :=
  Ends step endpoint (fun _ after => after.bargain.Allowed first ∧ after.phase.isAgreed = true)
    fun _ after => after.bargain.Allowed first

theorem settles_bind_of_keepsBargain {β : Type} {step : Step κ β} {next : β → Step κ α}
    (h : endpoint.bargain.Allowed first) (hstep : ∀ bargain, KeepsBargain bargain step)
    (hnext : ∀ value after, after.bargain = endpoint.bargain → Settles first (next value) after) :
    Settles first (step >>= next) endpoint := by
  rw [Settles, ends_bind]
  exact (hstep endpoint.bargain endpoint rfl).mono (fun value after => hnext value after) fun _ _ hafter => hafter ▸ h

theorem settles_enter {phase : Phase} (h : endpoint.bargain.Allowed first) (hphase : phase.isAgreed = true) :
    Settles first (enter phase) endpoint :=
  ⟨h, hphase⟩

theorem settles_finish (h : endpoint.bargain.Allowed first) : Settles first finish endpoint :=
  ⟨h, rfl⟩

theorem settles_receiveServerHello {offer : ClientOffer} (message : HandshakeMessage)
    (h : endpoint.bargain.Allowed first) (hside : endpoint.side = .client offer) :
    Settles first (receiveServerHello offer message) endpoint := by
  rw [Settles, receiveServerHello, ends_bind]
  refine ends_readBody (fun answer _ => ?_) h
  refine settles_bind_of_keepsBargain h (fun _ => keepsBargain_remember message) fun _ remembered hremembered => ?_
  rw [← hremembered] at h
  have hside : remembered.bargain.side = .client offer := by rw [hremembered]; exact hside
  rw [Settles, ends_bind]
  refine ends_accept (fun _ hcheck => ?_) fun _ _ => h
  have hafter : ({ remembered with
      session := (remembered.session.applyServerHello answer).2 } : Endpoint κ).bargain.Allowed first :=
    allowed_of_client hside (((Bargain.allowed_client hside).mp h).applyServerHello hcheck)
  rw [ends_bind]
  exact ends_onSession (fun _ _ => settles_enter hafter rfl) fun _ _ => hafter

theorem settles_receiveIdentityHint (message : HandshakeMessage) (h : endpoint.bargain.Allowed first) :
    Settles first (receiveIdentityHint message) endpoint := by
  rw [Settles, receiveIdentityHint, ends_bind]
  refine ends_readBody (fun _ _ => ?_) h
  refine settles_bind_of_keepsBargain h (fun _ => keepsBargain_remember message) fun _ after hafter => ?_
  exact settles_enter (hafter ▸ h) rfl

theorem settles_receiveServerHelloDone (message : HandshakeMessage) (h : endpoint.bargain.Allowed first) :
    Settles first (receiveServerHelloDone message) endpoint := by
  rw [Settles, receiveServerHelloDone]
  refine ends_guard (fun _ => h) fun _ => ?_
  refine settles_bind_of_keepsBargain h (fun _ => keepsBargain_remember message) fun _ remembered hremembered => ?_
  rw [← hremembered] at h
  rw [Settles, step_eq, ends_get_bind]
  refine settles_bind_of_keepsBargain h (fun _ => keepsBargain_accept _) fun body _ hbody => ?_
  rw [← hbody] at h
  refine settles_bind_of_keepsBargain h (fun _ => keepsBargain_sendMessage _) fun _ _ hsent => ?_
  rw [← hsent] at h
  refine settles_bind_of_keepsBargain h (fun _ => keepsBargain_sendChangeCipherSpec) fun _ _ hswitched => ?_
  rw [← hswitched] at h
  refine settles_bind_of_keepsBargain h (fun _ => keepsBargain_sendFinished) fun _ _ hfinished => ?_
  exact settles_enter (hfinished ▸ h) rfl

/-- A server that has settled nothing settles what its policy makes of the hello. -/
theorem settles_receiveClientHello {policy : ServerPolicy} {message : HandshakeMessage}
    (h : endpoint.bargain.Allowed none) (huntouched : endpoint.bargain.Untouched) (hside : endpoint.side = .server policy)
    (htype : message.type = .clientHello) : Settles (some message) (receiveClientHello policy message) endpoint := by
  have hlater : endpoint.bargain.Allowed (some message) := h.later (some message)
  rw [Settles, receiveClientHello, ends_bind]
  refine ends_readBody (fun hello hread => ?_) hlater
  refine settles_bind_of_keepsBargain hlater (fun _ => keepsBargain_remember message) fun _ remembered hremembered => ?_
  rw [← hremembered] at h hlater huntouched
  have hside : remembered.bargain.side = .server policy := by rw [hremembered]; exact hside
  rw [Settles, step_eq, ends_get_bind, ends_bind]
  refine ends_accept (fun answer hanswer => ?_) fun _ _ => hlater
  rw [ends_bind]
  show Ends (updateSession _ >>= _) _ _ _
  rw [ends_updateSession_bind, ends_bind]
  have hafter : ({ remembered with
      entropy := answer.2
      session := ((remembered.session.withClientRandom hello.random).applyServerHello answer.1).2 } :
      Endpoint κ).bargain.Allowed (some message) := by
    obtain ⟨hkey, hidentity, hallows⟩ := ServerPolicy.allows_applyServerHello
      (remembered.session.withClientRandom hello.random) hanswer huntouched.1 huntouched.2
    refine allowed_of_server hside (fun key hsome => ?_) fun suite hsuite => ?_
    · rw [hidentity]
      exact ((Bargain.allowed_server hside).mp h).1 key (hkey.symm.trans hsome)
    · exact ⟨message, hello, rfl, htype, hread, hallows suite hsuite⟩
  refine ends_onSession (fun _ _ => ?_) fun _ _ => hafter
  refine settles_bind_of_keepsBargain hafter (fun _ => keepsBargain_accept _) fun answerBody answered hanswered => ?_
  rw [← hanswered] at hafter
  refine settles_bind_of_keepsBargain hafter (fun _ => keepsBargain_sendMessage _) fun _ said hsaid => ?_
  rw [← hsaid] at hafter
  refine settles_bind_of_keepsBargain hafter (fun _ => keepsBargain_accept _) fun hintBody _ hhint => ?_
  rw [← hhint] at hafter
  refine settles_bind_of_keepsBargain hafter (fun _ => keepsBargain_sendMessage _) fun _ hinted hhinted => ?_
  rw [← hhinted] at hafter
  refine settles_bind_of_keepsBargain hafter (fun _ => keepsBargain_sendMessage ⟨.serverHelloDone, []⟩)
    fun _ done hdone => ?_
  exact settles_enter (hdone ▸ hafter) rfl

theorem settles_receiveIdentity {policy : ServerPolicy} (message : HandshakeMessage)
    (h : endpoint.bargain.Allowed first) (hside : endpoint.side = .server policy) :
    Settles first (receiveIdentity policy message) endpoint := by
  rw [Settles, receiveIdentity, ends_bind]
  refine ends_readBody (fun identity _ => ?_) h
  refine settles_bind_of_keepsBargain h (fun _ => keepsBargain_remember message) fun _ remembered hremembered => ?_
  rw [← hremembered] at h
  have hside : remembered.bargain.side = .server policy := by rw [hremembered]; exact hside
  split
  · exact h
  · next key hresolved =>
    have hsuite := ((Bargain.allowed_server hside).mp h).2
    have hkeyed : ({ remembered with session := remembered.session.withKey identity key } : Endpoint κ).bargain.Allowed
        first := by
      refine allowed_of_server hside (fun other hother => ?_) fun suite hmem => ?_
      · obtain rfl : key = other := Option.some.inj hother
        exact hresolved
      · obtain ⟨message, hello, hfirst, htype, hread, hallows⟩ := hsuite suite hmem
        exact ⟨message, hello, hfirst, htype, hread, hallows.withIdentity identity⟩
    exact settles_enter hkeyed rfl

/-- A server that waits for the first message has settled nothing. -/
def Pending (first : Option HandshakeMessage) (endpoint : Endpoint κ) : Prop :=
  endpoint.role = .server → endpoint.phase.isAgreed = false → first = none ∧ endpoint.bargain.Untouched

theorem settles_receiveMessage (message : HandshakeMessage) (h : endpoint.bargain.Allowed first)
    (hpending : endpoint.Pending first) : Settles (first.or (some message)) (receiveMessage message) endpoint := by
  have hlater := h.later (some message)
  rw [Settles, receiveMessage, step_eq, ends_get_bind]
  split
  · next hside _ _ => exact settles_receiveServerHello message hlater hside
  · exact settles_receiveIdentityHint message hlater
  · exact settles_receiveServerHelloDone message hlater
  · exact settles_receiveServerHelloDone message hlater
  · refine settles_bind_of_keepsBargain hlater (fun _ => keepsBargain_receiveFinished message) fun _ _ hafter => ?_
    exact settles_finish (hafter ▸ hlater)
  · next hside hphase htype =>
    obtain ⟨rfl, huntouched⟩ := hpending (by rw [role, hside]; rfl) (by rw [hphase]; rfl)
    exact settles_receiveClientHello h huntouched hside htype
  · next hside _ _ => exact settles_receiveIdentity message hlater hside
  · refine settles_bind_of_keepsBargain hlater (fun _ => keepsBargain_receiveFinished message) fun _ _ hafter => ?_
    rw [← hafter] at hlater
    refine settles_bind_of_keepsBargain hlater (fun _ => keepsBargain_sendChangeCipherSpec) fun _ _ hafter => ?_
    rw [← hafter] at hlater
    refine settles_bind_of_keepsBargain hlater (fun _ => keepsBargain_sendFinished) fun _ _ hafter => ?_
    exact settles_finish (hafter ▸ hlater)
  · exact hlater

end Endpoint

end PresharedTls
