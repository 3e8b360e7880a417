import PresharedTls.Proofs.Blame
import PresharedTls.Proofs.Endpoint.Sturdy

/-!
# Whose fault a failure is

Whatever a peer sends, a sturdy endpoint that fails blames the peer, or has run out of numbers. All that a
step could find wrong on its own side is ruled out by what the phase says of the session: which contexts there
are, whether there is a transcript, whether there is a key.
-/

namespace PresharedTls

/-- An answer says nothing of the client's identity and key. -/
theorem Session.credentials_applyServerHello {κ : Type} (session : Session κ) (answer : ServerHello) :
    (session.applyServerHello answer).2.identity = session.identity ∧
      (session.applyServerHello answer).2.key = session.key := by
  obtain ⟨parameters, hextensions, -⟩ := session.applyExtensions_eq answer.extensions.entries
  rw [applyServerHello]
  split
  · exact ⟨rfl, rfl⟩
  · split
    · exact ⟨rfl, rfl⟩
    · split
      · next hrun =>
        rw [hrun] at hextensions
        obtain rfl := hextensions
        exact ⟨rfl, rfl⟩
      · next hrun =>
        rw [hrun] at hextensions
        obtain rfl := hextensions
        exact ⟨rfl, rfl⟩

namespace Endpoint

variable {data : List Bytes} {endpoint after : Endpoint Protection} {α : Type}

/-- A failure that the peer is to blame for, or that is for want of a number. -/
def Excused (failure : ConnectionError) (after : Endpoint Protection) : Prop :=
  failure.Blames ∨ after.Mute

theorem excused_sentAlert {alert : AlertDescription} (h : alert ∈ peerFaults) : Excused (.sentAlert alert) after :=
  .inl (ConnectionError.blames_sentAlert h)

/-- A step that leaves an endpoint equipped, or fails with an excuse. -/
abbrev Bears (step : Step Protection α) (endpoint : Endpoint Protection) : Prop :=
  Ends step endpoint (fun _ after => after.Equipped) Excused

/-- What leaves an endpoint like the one before may go before any step. -/
theorem bears_bind {β : Type} {step : Step Protection β} {next : β → Step Protection α}
    (hstep : Ends step endpoint (fun _ => endpoint.Alike) fun _ => Mute)
    (hnext : ∀ value after, endpoint.Alike after → Bears (next value) after) : Bears (step >>= next) endpoint :=
  ends_bind.mpr (hstep.mono hnext fun _ _ => .inr)

theorem ends_remember (h : endpoint.session.Sealing) (message : HandshakeMessage) :
    Ends (remember message) endpoint (fun _ => endpoint.Alike) fun _ => Mute :=
  alike_addToTranscript h message.bytes

/-- Either context will do for a Finished. -/
theorem ends_sendFinished_of_sealing (h : endpoint.session.Sealing) (htranscript : endpoint.outline.recording = true)
    (hcontext : endpoint.outline.decrypter.isSome = true ∨ endpoint.outline.encrypts = true) :
    Ends sendFinished endpoint (fun _ => endpoint.Alike) fun _ => Mute := by
  obtain ⟨verifyData, hverifyData⟩ := Session.exists_verifyData h.provider htranscript hcontext endpoint.role
  rw [sendFinished, step_eq, ends_get_bind, perform_eq, Deed.step_compute, hverifyData, ends_bind]
  have hframed : HandshakeMessage.Framed ⟨.finished, verifyData.bytes⟩ := by
    rw [HandshakeMessage.Framed, verifyData.length_bytes]
    decide
  exact ends_sendMessage_of_sealing h hframed

/-- The encrypter is made behind the announcement, or the suite is newer than the version. -/
theorem excused_sendChangeCipherSpec (h : endpoint.session.Sealing) (hcomplete : endpoint.session.Complete)
    (hencrypts : endpoint.outline.encrypts = false) :
    Ends sendChangeCipherSpec endpoint
      (fun _ after => after.session.Sealing ∧ after.bargain = endpoint.bargain ∧
        after.outline = { endpoint.outline with encrypts := true }) Excused := by
  have hexcused : Ends sendChangeCipherSpec endpoint (fun _ _ => True) Excused := by
    have hlength : changeCipherSpecBody.length ≤ endpoint.session.plaintextLimit :=
      Nat.le_trans (by decide) (le_of_mem_plaintextLimits h.limited.plaintext)
    rw [sendChangeCipherSpec, ends_bind]
    refine (ends_sendRecord_of_sealing h .changeCipherSpec hlength).mono (fun _ after halike => ?_)
      fun _ _ hmute => .inr hmute.2
    rw [step_eq, ends_get_bind, perform_eq, Deed.step_createEncrypter]
    refine ends_onSession (fun _ _ => trivial) fun alert herror => ?_
    have hnone : after.session.encrypter = none := by
      have hafter : after.outline.encrypts = false := halike.outline ▸ hencrypts
      exact Option.isNone_iff_eq_none.mp (Option.isSome_eq_false_iff.mp hafter)
    obtain rfl := (halike.complete hcomplete).error_of_createEncrypter hnone herror
    exact excused_sentAlert (by decide)
  refine ((((ends_sendChangeCipherSpec endpoint).and (keepsBargain_sendChangeCipherSpec endpoint rfl)).and
    (keepsChanges_sendChangeCipherSpec endpoint .refl)).and hexcused).mono ?_ fun _ _ => And.right
  rintro _ after ⟨⟨⟨⟨-, houtline⟩, hbargain⟩, hchanges⟩, -⟩
  exact ⟨sealing_of_changes hchanges h, hbargain, houtline⟩

/-- An endpoint that can make its encrypter switches, and says Finished in the new keys. -/
theorem bears_switch {next : PUnit → Step Protection α} (hsealing : endpoint.session.Sealing) (hequipped : endpoint.Equipped)
    (hcomplete : endpoint.session.Complete) (hencrypts : endpoint.outline.encrypts = false)
    (hrecording : endpoint.outline.recording = true)
    (hnext : ∀ after : Endpoint Protection, after.Equipped → after.role = endpoint.role → after.phase = endpoint.phase →
      Bears (next ⟨⟩) after) :
    Bears (sendChangeCipherSpec >>= fun _ => sendFinished >>= next) endpoint := by
  rw [Bears, ends_bind]
  refine (excused_sendChangeCipherSpec hsealing hcomplete hencrypts).mono ?_ fun _ _ => id
  rintro _ switched ⟨hsealing, hbargain, houtline⟩
  have hrole : switched.role = endpoint.role := congrArg (·.role) houtline
  have hphase : switched.phase = endpoint.phase := congrArg (·.phase) houtline
  have hfinished : Ends sendFinished switched (fun _ => switched.Alike) fun _ => Mute :=
    ends_sendFinished_of_sealing hsealing (by rw [houtline]; exact hrecording) (.inr (by rw [houtline]))
  refine bears_bind hfinished fun _ finished halike => ?_
  exact hnext finished (halike.equipped (hequipped.of_bargain hbargain hphase)) (halike.role.trans hrole)
    (halike.phase.trans hphase)

theorem bears_enter {phase : Phase} (h : endpoint.Equipped)
    (hkeyed : endpoint.role.isKeyed phase = true → endpoint.role.isKeyed endpoint.phase = true) :
    Bears (enter phase) endpoint :=
  h.of_same rfl rfl rfl hkeyed

/-- A client has its key in every phase. -/
theorem bears_enter_of_client {phase : Phase} (h : endpoint.Equipped) (hrole : endpoint.role = .client) :
    Bears (enter phase) endpoint :=
  bears_enter h fun _ => by rw [hrole]; rfl

theorem bears_finish (h : endpoint.Equipped) (hkeyed : endpoint.role.isKeyed endpoint.phase = true) :
    Bears finish endpoint :=
  h.of_same rfl rfl rfl fun _ => hkeyed

theorem Sturdy.complete (h : endpoint.Sturdy data) (hagreed : endpoint.phase.isAgreed = true)
    (hkeyed : endpoint.role.isKeyed endpoint.phase = true) : endpoint.session.Complete := by
  have hrandom : endpoint.outline.role.hasClientRandom endpoint.outline.phase = true :=
    Role.hasClientRandom_of_isAgreed _ hagreed
  exact ⟨h.sealing.provider, h.inOrder.hasSuite_eq.trans hagreed, h.inOrder.hasClientRandom_eq.trans hrandom,
    h.inOrder.hasServerRandom_eq.trans hagreed, h.equipped.keyed hkeyed, h.equipped.key⟩

/-! ### The client's side -/

theorem bears_sendClientHello {offer : ClientOffer} (h : endpoint.Sturdy data) (hside : endpoint.side = .client offer) :
    Bears (sendClientHello offer) endpoint := by
  have hrole : endpoint.role = .client := congrArg Side.role hside
  have hfits : offer.Fits := by
    have hfits := h.equipped.side
    rwa [hside] at hfits
  obtain ⟨block, hblock, hroom⟩ := hfits.extensions
  have hbytes : ∃ body, (offer.hello endpoint.entropy).1.bytes = .ok body ∧
      body.length = 2 * offer.suites.length + block.length + 39 :=
    @ClientHello.exists_bytes (offer.hello endpoint.entropy).1 hfits.suites_ne_nil hfits.suites block hblock
  obtain ⟨body, hbody, hlength⟩ := hbytes
  have hframed : HandshakeMessage.Framed ⟨.clientHello, body⟩ := by
    have hsuites := hfits.suites
    show body.length < 16777216
    omega
  have hgreeted : ({ endpoint with
      entropy := (offer.hello endpoint.entropy).2
      session := endpoint.session.withClientRandom (offer.hello endpoint.entropy).1.random } :
      Endpoint Protection).session.Sealing :=
    sealing_of_change (.greeted _) (sealing_of_change (.drew (offer.hello endpoint.entropy).2) h.sealing)
  rw [Bears, sendClientHello, step_eq, ends_get_bind, ends_bind]
  show Ends (accept (offer.hello endpoint.entropy).1.bytes >>= _) _ _ _
  rw [hbody, ends_bind]
  show Ends (updateSession _ >>= _) _ _ _
  rw [ends_updateSession_bind]
  refine bears_bind (ends_sendMessage_of_sealing hgreeted hframed) fun _ after halike => ?_
  have hequipped := halike.equipped (h.equipped.of_same rfl rfl rfl id)
  exact bears_enter_of_client hequipped (halike.role.trans hrole)

theorem bears_receiveServerHello {offer : ClientOffer} (message : HandshakeMessage) (h : endpoint.Sturdy data)
    (hrole : endpoint.role = .client) : Bears (receiveServerHello offer message) endpoint := by
  rw [Bears, receiveServerHello, ends_bind]
  refine ends_readBody (fun answer _ => ?_) (excused_sentAlert (by decide))
  refine bears_bind (ends_remember h.sealing message) fun _ after halike => ?_
  have hequipped := halike.equipped h.equipped
  rw [Bears, ends_bind]
  refine ends_accept (fun _ _ => ?_) fun alert herror => excused_sentAlert (ClientOffer.mem_peerFaults_of_check herror)
  obtain ⟨hidentity, hkey⟩ := after.session.credentials_applyServerHello answer
  rw [ends_bind]
  refine ends_onSession (fun _ _ => ?_) fun alert herror =>
    excused_sentAlert (Session.mem_peerFaults_of_applyServerHello herror)
  exact bears_enter_of_client (hequipped.of_same rfl hidentity hkey id) (halike.role.trans hrole)

theorem bears_receiveIdentityHint (message : HandshakeMessage) (h : endpoint.Sturdy data)
    (hrole : endpoint.role = .client) : Bears (receiveIdentityHint message) endpoint := by
  rw [Bears, receiveIdentityHint, ends_bind]
  refine ends_readBody (fun _ _ => ?_) (excused_sentAlert (by decide))
  refine bears_bind (ends_remember h.sealing message) fun _ after halike => ?_
  exact bears_enter_of_client (halike.equipped h.equipped) (halike.role.trans hrole)

theorem bears_receiveServerHelloDone (message : HandshakeMessage) (h : endpoint.Sturdy data)
    (hrole : endpoint.role = .client) (hphase : endpoint.phase = .waitKeyExchange ∨ endpoint.phase = .waitHelloDone) :
    Bears (receiveServerHelloDone message) endpoint := by
  have hencrypts : endpoint.outline.encrypts = false := by
    rw [h.inOrder.encrypts_eq, show endpoint.outline.role = .client from hrole]
    rcases hphase with hphase | hphase <;> rw [show endpoint.outline.phase = _ from hphase] <;> rfl
  have hrecording : endpoint.outline.recording = true := by
    rw [h.inOrder.recording_eq]
    rcases hphase with hphase | hphase <;> rw [show endpoint.outline.phase = _ from hphase] <;> rfl
  have hcomplete : endpoint.session.Complete := by
    refine h.complete ?_ (by rw [hrole]; rfl)
    rcases hphase with hphase | hphase <;> rw [hphase] <;> rfl
  rw [Bears, receiveServerHelloDone]
  refine ends_guard (fun _ => excused_sentAlert (by decide)) fun _ => ?_
  refine bears_bind (ends_remember h.sealing message) fun _ remembered hremembered => ?_
  have hidentity := (hremembered.equipped h.equipped).identity
  obtain ⟨body, hbody, hframed⟩ := KeyIdentity.exists_body hidentity .clientKeyExchange
  rw [Bears, step_eq, ends_get_bind, hbody, ends_bind]
  show Ends (sendMessage _ >>= _) _ _ _
  refine bears_bind (ends_sendMessage_of_sealing hremembered.sealing hframed) fun _ sent hsent => ?_
  have halike := hremembered.trans hsent
  refine bears_switch halike.sealing (halike.equipped h.equipped) (halike.complete hcomplete) (halike.outline ▸ hencrypts)
    (halike.outline ▸ hrecording) fun finished hequipped hsame _ => ?_
  exact bears_enter_of_client hequipped (hsame.trans (halike.role.trans hrole))

/-! ### The server's side -/

/-- All that a server says to a hello goes out, once the first of it is made. -/
theorem bears_sendAnswer {policy : ServerPolicy} {body : Bytes} (hsealing : endpoint.session.Sealing)
    (hequipped : endpoint.Equipped) (hrole : endpoint.role = .server) (hpolicy : policy.Fits)
    (hframed : HandshakeMessage.Framed ⟨.serverHello, body⟩) :
    Bears (do
      sendMessage ⟨.serverHello, body⟩
      let hintBody ← accept (KeyIdentity.body policy.identityHint)
      sendMessage ⟨.serverKeyExchange, hintBody⟩
      sendMessage ⟨.serverHelloDone, []⟩
      enter .waitKeyExchange) endpoint := by
  obtain ⟨hint, hhint, hhintFramed⟩ := KeyIdentity.exists_body hpolicy.identityHint .serverKeyExchange
  refine bears_bind (ends_sendMessage_of_sealing hsealing hframed) fun _ said hsaid => ?_
  rw [hhint, Bears, ends_bind]
  show Ends (sendMessage _ >>= _) _ _ _
  refine bears_bind (ends_sendMessage_of_sealing hsaid.sealing hhintFramed) fun _ hinted hhinted => ?_
  have hempty : HandshakeMessage.Framed ⟨.serverHelloDone, []⟩ := Nat.zero_lt_succ _
  refine bears_bind (ends_sendMessage_of_sealing hhinted.sealing hempty) fun _ done hdone => ?_
  have halike := (hsaid.trans hhinted).trans hdone
  refine bears_enter (halike.equipped hequipped) fun hkeyed => ?_
  rw [halike.role, hrole] at hkeyed
  cases hkeyed

/-- What a server answers has room, for the client had room for it. -/
theorem bears_receiveClientHello {policy : ServerPolicy} (message : HandshakeMessage) (h : endpoint.Sturdy data)
    (hside : endpoint.side = .server policy) : Bears (receiveClientHello policy message) endpoint := by
  have hfits : policy.Fits := by
    have hfits := h.equipped.side
    rwa [hside] at hfits
  rw [Bears, receiveClientHello, ends_bind]
  refine ends_readBody (fun hello hread => ?_) (excused_sentAlert (by decide))
  refine bears_bind (ends_remember h.sealing message) fun _ remembered hremembered => ?_
  rw [Bears, step_eq, ends_get_bind, ends_bind]
  refine ends_accept (fun answer hanswer => ?_) fun alert herror =>
    excused_sentAlert (ServerPolicy.mem_peerFaults_of_answer herror)
  obtain ⟨version, suite, -, -, hanswering⟩ := ServerPolicy.of_answer hanswer
  obtain ⟨body, hbody, hlength⟩ := policy.exists_bytes_of_read version suite hread (remembered.entropy.draw 32).1
  rw [← hanswering] at hbody
  have hframed : HandshakeMessage.Framed ⟨.serverHello, body⟩ := by
    show body.length < 16777216
    omega
  rw [ends_bind]
  show Ends (updateSession _ >>= _) _ _ _
  rw [ends_updateSession_bind, ends_bind]
  refine ends_onSession (fun _ _ => ?_) fun alert herror =>
    excused_sentAlert (Session.mem_peerFaults_of_applyServerHello herror)
  obtain ⟨hidentity, hkey⟩ := (remembered.session.withClientRandom hello.random).credentials_applyServerHello answer.1
  obtain ⟨answered, hanswered⟩ : ∃ answered : Endpoint Protection, answered = { remembered with
      entropy := answer.2
      session := ((remembered.session.withClientRandom hello.random).applyServerHello answer.1).2 } := ⟨_, rfl⟩
  have hsealing : answered.session.Sealing := by
    rw [hanswered]
    exact sealing_of_change (.answered answer.1) (sealing_of_change (.greeted hello.random)
      (sealing_of_change (.drew answer.2) hremembered.sealing))
  have hequipped : answered.Equipped := by
    rw [hanswered]
    exact (hremembered.equipped h.equipped).of_same rfl hidentity hkey id
  have hrole : answered.role = .server := by
    rw [hanswered]
    exact hremembered.role.trans (congrArg Side.role hside)
  rw [← hanswered, hbody, ends_bind]
  exact bears_sendAnswer hsealing hequipped hrole hfits hframed

/-- The key comes from the policy, and what it gives fits. -/
theorem bears_receiveIdentity {policy : ServerPolicy} (message : HandshakeMessage) (h : endpoint.Sturdy data)
    (hside : endpoint.side = .server policy) : Bears (receiveIdentity policy message) endpoint := by
  rw [Bears, receiveIdentity, ends_bind]
  refine ends_readBody (fun identity hread => ?_) (excused_sentAlert (by decide))
  refine bears_bind (ends_remember h.sealing message) fun _ after halike => ?_
  split
  · exact excused_sentAlert (by decide)
  · next key hresolved =>
    have hfits := h.equipped.side
    rw [hside] at hfits
    have hequipped := (halike.equipped h.equipped).side
    refine ⟨hequipped, KeyIdentity.length_of_ofBody? hread, fun other hother => ?_, fun _ => rfl⟩
    cases hother
    exact hfits.keys identity key hresolved

/-! ### Both sides -/

/-- A Finished is read, computed and compared, with the decrypter that has opened it. -/
theorem ends_receiveFinished_of_sturdy (message : HandshakeMessage) (h : endpoint.Sturdy data)
    (hphase : endpoint.phase = .waitFinished) : Ends (receiveFinished message) endpoint (fun _ => endpoint.Alike) Excused := by
  have hdecrypts : endpoint.session.decrypter.isSome = true := h.inOrder.decrypts_eq.trans (congrArg Phase.decrypts hphase)
  have hrecording : endpoint.session.transcript.isSome = true := by
    have hrecording : endpoint.outline.recording = decide (endpoint.phase ≠ .connected) := h.inOrder.recording_eq
    rw [hphase] at hrecording
    exact hrecording
  obtain ⟨expected, hexpected⟩ :=
    Session.exists_verifyData h.sealing.provider hrecording (.inl hdecrypts) endpoint.role.peer
  rw [receiveFinished, ends_bind]
  refine ends_readBody (fun verifyData _ => ?_) (excused_sentAlert (by decide))
  rw [step_eq, ends_get_bind, perform_eq, Deed.step_compute, hexpected, ends_bind]
  refine ends_guard (fun _ => excused_sentAlert (by decide)) fun _ => ?_
  exact alike_addToTranscript h.sealing message.bytes

theorem bears_receiveServerFinished (message : HandshakeMessage) (h : endpoint.Sturdy data)
    (hrole : endpoint.role = .client) (hphase : endpoint.phase = .waitFinished) :
    Bears (do receiveFinished message; finish) endpoint := by
  rw [Bears, ends_bind]
  refine (ends_receiveFinished_of_sturdy message h hphase).mono (fun _ after halike => ?_) fun _ _ => id
  exact bears_finish (halike.equipped h.equipped) (by rw [halike.role, hrole]; rfl)

theorem bears_receiveClientFinished (message : HandshakeMessage) (h : endpoint.Sturdy data)
    (hrole : endpoint.role = .server) (hphase : endpoint.phase = .waitFinished) :
    Bears (do receiveFinished message; sendChangeCipherSpec; sendFinished; finish) endpoint := by
  have hkeyed : endpoint.role.isKeyed endpoint.phase = true := by rw [hrole, hphase]; rfl
  have hcomplete : endpoint.session.Complete := h.complete (by rw [hphase]; rfl) hkeyed
  have hencrypts : endpoint.outline.encrypts = false := (h.inOrder.expected hrole hphase).1
  have hrecording : endpoint.outline.recording = true := by
    rw [h.inOrder.recording_eq, show endpoint.outline.phase = _ from hphase]
    rfl
  rw [Bears, ends_bind]
  refine (ends_receiveFinished_of_sturdy message h hphase).mono (fun _ after halike => ?_) fun _ _ => id
  refine bears_switch halike.sealing (halike.equipped h.equipped) (halike.complete hcomplete) (halike.outline ▸ hencrypts)
    (halike.outline ▸ hrecording) fun finished hequipped hsame hlater => ?_
  refine bears_finish hequipped ?_
  rw [hsame, hlater, halike.role, halike.phase]
  exact hkeyed

theorem bears_receiveMessage (message : HandshakeMessage) (h : endpoint.Sturdy data) :
    Bears (receiveMessage message) endpoint := by
  have hrole {role : Role} (hside : endpoint.side.role = role) : endpoint.role = role := hside
  rw [Bears, receiveMessage, step_eq, ends_get_bind]
  split
  · next hside _ _ => exact bears_receiveServerHello message h (hrole (by rw [hside]; rfl))
  · next hside _ _ => exact bears_receiveIdentityHint message h (hrole (by rw [hside]; rfl))
  · next hside hphase _ => exact bears_receiveServerHelloDone message h (hrole (by rw [hside]; rfl)) (.inl hphase)
  · next hside hphase _ => exact bears_receiveServerHelloDone message h (hrole (by rw [hside]; rfl)) (.inr hphase)
  · next hside hphase _ => exact bears_receiveServerFinished message h (hrole (by rw [hside]; rfl)) hphase
  · next hside _ _ => exact bears_receiveClientHello message h hside
  · next hside _ _ => exact bears_receiveIdentity message h hside
  · next hside hphase _ => exact bears_receiveClientFinished message h (hrole (by rw [hside]; rfl)) hphase
  · exact excused_sentAlert (by decide)

/-! ### Records -/

/-- A step that bears an endpoint which is in order leaves one that is as sturdy. -/
theorem sturdy_of_bears {step : Step Protection α} {bad : ConnectionError → Endpoint Protection → Prop}
    (h : endpoint.Sturdy data) (horders : Orders data step endpoint) (hchanges : KeepsChanges endpoint step)
    (hbears : Ends step endpoint (fun _ after => after.Equipped) bad) :
    Ends step endpoint (fun _ after => after.Sturdy data) bad := by
  refine ((horders.and (hchanges endpoint .refl)).and hbears).mono ?_ fun _ _ => And.right
  rintro _ after ⟨⟨hinOrder, hchanges⟩, hequipped⟩
  exact ⟨hinOrder, sealing_of_changes hchanges h.sealing, hequipped⟩

theorem sturdy_receiveMessage (message : HandshakeMessage) (h : endpoint.Sturdy data) :
    Ends (receiveMessage message) endpoint (fun _ after => after.Sturdy data) Excused :=
  sturdy_of_bears h (orders_receiveMessage message endpoint h.inOrder) (keepsChanges_receiveMessage message)
    (bears_receiveMessage message h)

theorem Sturdy.withHandshake (h : endpoint.Sturdy data) (handshake : Bytes) :
    Sturdy data { endpoint with handshake := handshake } :=
  ⟨h.inOrder, h.sealing, h.equipped.of_same rfl rfl rfl id⟩

theorem sturdy_takeMessage (message : HandshakeMessage) (h : endpoint.Sturdy data) :
    Ends (takeMessage message) endpoint (fun _ after => after.Sturdy data) Excused :=
  sturdy_receiveMessage message (h.withHandshake _)

theorem sturdy_receiveHandshake (plaintext : Bytes) (h : endpoint.Sturdy data) :
    Ends (receiveHandshake plaintext) endpoint (fun _ after => after.Sturdy data) Excused := by
  rw [receiveHandshake]
  refine ends_guard (fun _ => excused_sentAlert (by decide)) fun _ => ?_
  rw [step_eq, ends_get_bind, ends_bind]
  show Ends (takeMessages _) { endpoint with handshake := _ } _ _
  rw [takeMessages, ends_bind]
  refine (ends_forM (fun message _ _ => sturdy_takeMessage message) (h.withHandshake _)).mono (fun _ after hafter => ?_)
    fun _ _ => id
  cases hfault : (HandshakeMessage.framing.cut (endpoint.handshake ++ plaintext)).fault with
  | none => exact hafter
  | some alert => exact excused_sentAlert (HandshakeMessage.mem_peerFaults_of_cut hfault)

theorem bears_receiveChangeCipherSpec (plaintext : Bytes) (h : endpoint.Sturdy data) :
    Bears (receiveChangeCipherSpec plaintext) endpoint := by
  rw [Bears, receiveChangeCipherSpec]
  refine ends_guard (fun _ => excused_sentAlert (by decide)) fun _ => ?_
  rw [step_eq, ends_get_bind]
  refine ends_guard (fun _ => excused_sentAlert (by decide)) fun _ =>
    ends_guard (fun _ => excused_sentAlert (by decide)) fun hwaiting => ?_
  have hphase : endpoint.phase = .waitChangeCipher := Decidable.not_not.mp hwaiting
  have hkeyed : endpoint.role.isKeyed endpoint.phase = true := by
    rw [hphase]
    cases endpoint.role <;> rfl
  have hnone : endpoint.session.decrypter = none := by
    have hdecrypts : endpoint.session.decrypter.isSome = false :=
      h.inOrder.decrypts_eq.trans (congrArg Phase.decrypts hphase)
    exact Option.isNone_iff_eq_none.mp (Option.isSome_eq_false_iff.mp hdecrypts)
  have hcomplete := h.complete (by rw [hphase]; rfl) hkeyed
  rw [ends_bind, perform_eq, Deed.step_createDecrypter]
  refine ends_onSession (fun _ hok => ?_) fun alert herror => ?_
  · rcases endpoint.session.createDecrypter_cases endpoint.role.peer with ⟨params, context, -, -, -, hcreated⟩ | ⟨alert, hfailed⟩
    · rw [hcreated]
      exact bears_enter (h.equipped.of_same rfl rfl rfl id) fun _ => hkeyed
    · rw [hfailed] at hok
      cases hok
  · obtain rfl := hcomplete.error_of_createDecrypter hnone herror
    exact excused_sentAlert (by decide)

end Endpoint

/-- A record does not open because it is wrong, or because there is no number left for it. -/
theorem Session.error_of_decrypt {session : Session Protection} (hprovider : session.provider = .standard) {typeCode : UInt8}
    {version : UInt16} {fragment : Bytes} {alert : AlertDescription}
    (h : (session.decrypt typeCode version fragment).1 = .error alert) :
    alert = .badRecordMac ∨ ∃ context, session.decrypter = some context ∧ context.Exhausted := by
  rw [decrypt] at h
  split at h
  · cases h
  · next context hcontext =>
    rw [hprovider] at h
    change (context.unprotect typeCode version fragment).1 = _ at h
    by_cases hexhausted : Protection.sequenceBound ≤ context.sequence
    · exact .inr ⟨context, hcontext, hexhausted⟩
    · obtain ⟨hok, hbad⟩ := Protection.unprotect_cases (Nat.lt_of_not_le hexhausted) typeCode version fragment
      refine .inl (Except.error.inj (h.symm.trans (hbad fun plaintext hopens => ?_)))
      cases ((hok plaintext).mpr hopens).symm.trans h

namespace Endpoint

variable {data : List Bytes} {endpoint after : Endpoint Protection} {α : Type}

/-- A record is excused as its plaintext is, unless the decrypter has no number for it. -/
theorem sturdy_receiveRecord (record : Record) (h : endpoint.Sturdy data) :
    Ends (receiveRecord record) endpoint (fun _ after => after.Sturdy data) fun failure after =>
      Excused failure after ∨ endpoint.Deaf := by
  refine sturdy_of_bears h (orders_receiveRecord record endpoint h.inOrder) (keepsChanges_receiveRecord record) ?_
  rcases hopened : endpoint.session.decrypt record.typeCode record.version record.fragment with ⟨result, session⟩
  have hsession := endpoint.session.decrypt_snd record.typeCode record.version record.fragment
  rw [hopened] at hsession
  have hnext : Sturdy data { endpoint with session := session } := by
    refine ⟨(inOrder_decrypt h.inOrder hopened).1, ?_, ?_⟩
    · have hsealing := sealing_of_change (.opened record.typeCode record.version record.fragment) h.sealing
      rwa [hopened] at hsealing
    · obtain rfl : session = _ := hsession
      exact h.equipped.of_same rfl rfl rfl id
  have hexcused {failure : ConnectionError} {after : Endpoint Protection} (hexcused : Excused failure after) :
      Excused failure after ∨ endpoint.Deaf := .inl hexcused
  rw [receiveRecord, ends_bind, perform_eq, Deed.step_unprotect]
  refine ends_onSession (fun plaintext hplaintext => ?_) fun alert herror => ?_
  · rw [hopened] at hplaintext ⊢
    rw [step_eq, ends_get_bind]
    refine ends_guard (fun _ => hexcused (excused_sentAlert (by decide))) fun _ => ?_
    split
    · exact (sturdy_receiveHandshake plaintext hnext).mono (fun _ _ => Sturdy.equipped) fun _ _ => hexcused
    · exact (bears_receiveChangeCipherSpec plaintext hnext).mono (fun _ _ => id) fun _ _ => hexcused
    · rw [step_eq, receiveApplicationData, ends_get_bind]
      refine ends_guard (fun _ => hexcused (excused_sentAlert (by decide))) fun _ => ?_
      exact hnext.equipped.of_same rfl rfl rfl id
    · rw [receiveAlert, ends_bind]
      refine ends_readBody (fun alert _ => hexcused (.inl ?_)) (hexcused (excused_sentAlert (by decide)))
      intro _ hsent
      cases hsent
    · exact hexcused (excused_sentAlert (by decide))
  · rw [hopened] at herror
    rcases Session.error_of_decrypt h.sealing.provider ((congrArg Prod.fst hopened).trans herror) with rfl | hdeaf
    · exact hexcused (excused_sentAlert (by decide))
    · exact .inr hdeaf

/-- What comes in fails an endpoint with an excuse, or because a record came for which the decrypter had no number. -/
theorem sturdy_receiveRecords {limit : Nat} {buffer : Bytes} (h : endpoint.Sturdy data) :
    Ends (receiveRecords ((Record.framing limit).cut buffer)) endpoint (fun _ after => after.Sturdy data)
      fun failure after => Excused failure after ∨
        ∃ met ∈ endpoint.meetings ((Record.framing limit).cut buffer).items, met.1.Deaf := by
  rw [receiveRecords, ends_bind]
  have hitems : Ends (((Record.framing limit).cut buffer).items.forM receiveRecord) endpoint
      (fun _ after => after.Sturdy data) fun failure after => Excused failure after ∨
        ∃ met ∈ endpoint.meetings ((Record.framing limit).cut buffer).items, met.1.Deaf := by
    induction ((Record.framing limit).cut buffer).items generalizing endpoint with
    | nil => exact h
    | cons record rest ih =>
      have hrecord := sturdy_receiveRecord record h
      rw [meetings, Ends]
      cases hrun : (receiveRecord record).run endpoint with
      | ok value between =>
        rw [Ends, hrun] at hrecord
        rw [show EStateM.run ((record :: rest).forM receiveRecord) endpoint =
          EStateM.run (rest.forM receiveRecord) between from run_bind_of_ok hrun]
        refine (ih hrecord).mono (fun _ _ => id) fun failure after => Or.imp_right ?_
        rintro ⟨met, hmem, hdeaf⟩
        exact ⟨met, List.mem_cons_of_mem _ hmem, hdeaf⟩
      | error failure between =>
        rw [Ends, hrun] at hrecord
        rw [show EStateM.run ((record :: rest).forM receiveRecord) endpoint = .error failure between from
          run_bind_of_error hrun]
        exact hrecord.imp_right fun hdeaf => ⟨_, List.mem_cons_self, hdeaf⟩
  refine hitems.mono (fun _ after hafter => ?_) fun _ _ => id
  cases hfault : ((Record.framing limit).cut buffer).fault with
  | none => exact hafter
  | some alert => exact .inl (excused_sentAlert (Record.mem_peerFaults_of_cut hfault))

end Endpoint

end PresharedTls
