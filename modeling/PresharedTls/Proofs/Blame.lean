import PresharedTls.Endpoint.Receive

/-!
# Faults of the peer's

What is found wrong in what a peer sends is told to it in one of seven alerts. They are gathered here from the
functions that read and judge its messages, each of which fails with one of these and with no other.
-/

namespace PresharedTls

/-- The alerts that tell the peer of a fault of its own. -/
def peerFaults : List AlertDescription :=
  [.decodeError, .illegalParameter, .unexpectedMessage, .protocolVersion, .recordOverflow, .decryptError, .badRecordMac]

theorem internalError_not_mem_peerFaults : AlertDescription.internalError ∉ peerFaults := by
  decide

/-- If an alert goes out for the failure, it tells of a fault of the peer's. -/
def ConnectionError.Blames (failure : ConnectionError) : Prop :=
  ∀ alert, failure = .sentAlert alert → alert ∈ peerFaults

theorem ConnectionError.blames_sentAlert {alert : AlertDescription} (h : alert ∈ peerFaults) : (sentAlert alert).Blames := by
  intro other hother
  cases hother
  exact h

section

variable {alert : AlertDescription}

theorem ClientOffer.mem_peerFaults_of_check {offer : ClientOffer} {answer : ServerHello}
    (h : offer.check answer = .error alert) : alert ∈ peerFaults := by
  rw [check] at h
  split at h
  · cases h
    decide
  · split at h
    · cases h
      decide
    · split at h
      · cases h
      · cases h
        decide

theorem MaxFragmentLength.error_of_ofBytes {data : Bytes} (h : ofBytes data = .error alert) : alert = .illegalParameter := by
  unfold ofBytes at h
  repeat' split at h
  all_goals cases h
  all_goals rfl

theorem Session.error_of_applyExtension {κ : Type} {session : Session κ} {type : UInt16} {data : Bytes}
    (h : session.applyExtension type data = .error alert) : alert = .illegalParameter := by
  rw [applyExtension] at h
  split at h
  · cases h
  · cases hlength : MaxFragmentLength.ofBytes data with
    | error other =>
      rw [hlength] at h
      cases h
      exact MaxFragmentLength.error_of_ofBytes hlength
    | ok length =>
      rw [hlength] at h
      cases h
  · split at h <;> cases h
    rfl
  · split at h <;> cases h
    rfl

theorem Session.error_of_applyExtensions {κ : Type} {session : Session κ} {entries : List (UInt16 × Bytes)}
    (h : (session.applyExtensions entries).1 = .error alert) : alert = .illegalParameter := by
  induction entries generalizing session with
  | nil => cases h
  | cons entry rest ih =>
    obtain ⟨type, data⟩ := entry
    rw [applyExtensions] at h
    cases happly : session.applyExtension type data with
    | error other =>
      rw [happly] at h
      cases h
      exact error_of_applyExtension happly
    | ok after =>
      rw [happly] at h
      exact ih h

theorem Session.mem_peerFaults_of_applyServerHello {κ : Type} {session : Session κ} {answer : ServerHello}
    (h : (session.applyServerHello answer).1 = .error alert) : alert ∈ peerFaults := by
  rw [applyServerHello] at h
  split at h
  · cases h
    decide
  · split at h
    · cases h
      decide
    · split at h
      · next hextensions =>
        cases h
        obtain rfl := error_of_applyExtensions (congrArg Prod.fst hextensions)
        decide
      · cases h

theorem ServerPolicy.mem_peerFaults_of_answer {policy : ServerPolicy} {hello : ClientHello} {entropy : Entropy}
    (h : policy.answer hello entropy = .error alert) : alert ∈ peerFaults := by
  rw [ServerPolicy.answer] at h
  cases hversion : policy.chooseVersion hello.version with
  | error other =>
    rw [hversion] at h
    cases h
    rw [chooseVersion] at hversion
    split at hversion
    · cases hversion
      decide
    · split at hversion <;> cases hversion
      decide
  | ok version =>
    rw [hversion] at h
    change (policy.chooseSuite version hello.suites >>= _) = _ at h
    cases hsuite : policy.chooseSuite version hello.suites with
    | error other =>
      rw [hsuite] at h
      cases h
      rw [chooseSuite] at hsuite
      split at hsuite <;> cases hsuite
      decide
    | ok suite =>
      rw [hsuite] at h
      cases h

/-- A fault behind items is one that was found where the next of them would be. -/
theorem Framing.exists_next_of_fault {α : Type} {framing : Framing α} {buffer : Bytes}
    (h : (framing.cut buffer).fault = some alert) : ∃ rest, framing.next rest = .error alert := by
  fun_induction cut framing buffer with
  | case1 buffer fault hfault =>
    cases h
    exact ⟨buffer, hfault⟩
  | case2 => cases h
  | case3 buffer item rest hitem behind ih => exact ih h

theorem HandshakeMessage.mem_peerFaults_of_cut {buffer : Bytes} (h : (framing.cut buffer).fault = some alert) :
    alert ∈ peerFaults := by
  obtain ⟨rest, hnext⟩ := Framing.exists_next_of_fault h
  change next rest = _ at hnext
  unfold next at hnext
  split at hnext
  · split at hnext
    · next hheader =>
      cases hnext
      rw [HandshakeHeader.ofBytes] at hheader
      split at hheader
      · cases hheader
        decide
      · dsimp only at hheader
        split at hheader <;> cases hheader
        decide
    · split at hnext <;> cases hnext
  · cases hnext

theorem Record.mem_peerFaults_of_cut {limit : Nat} {buffer : Bytes} (h : ((framing limit).cut buffer).fault = some alert) :
    alert ∈ peerFaults := by
  obtain ⟨rest, hnext⟩ := Framing.exists_next_of_fault h
  change next limit rest = _ at hnext
  rw [next] at hnext
  split at hnext
  · cases hnext
  · split at hnext
    · cases hnext
      decide
    · split at hnext <;> cases hnext

end

end PresharedTls
