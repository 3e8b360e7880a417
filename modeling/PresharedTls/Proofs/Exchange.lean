import PresharedTls.Proofs.Standing

/-!
# What each side makes of a message

The messages of a handshake between two ends that mean well, one lemma for each handler: the server's
answer to a hello, the client's answer to the server's hello messages, and how either side takes leave.
-/

namespace PresharedTls

open Endpoint

namespace Standing

variable (standing : Standing)

/-- The key exchange body for an identity that is short enough. -/
def identityBody (identity : Bytes) : Bytes :=
  bigEndian 2 identity.length ++ identity

theorem body_identity {identity : Bytes} (h : 2 + identity.length ≤ HandshakeHeader.maximumLength) :
    KeyIdentity.body identity = .ok (identityBody identity) := by
  have hshort : identity.length < 65536 := by
    rw [HandshakeHeader.maximumLength] at h
    omega
  rw [KeyIdentity.body, if_pos hshort, identityBody]

def hint (identity : Bytes) : HandshakeMessage :=
  ⟨.serverKeyExchange, identityBody identity⟩

def helloDone : HandshakeMessage :=
  ⟨.serverHelloDone, []⟩

def keyExchange (identity : Bytes) : HandshakeMessage :=
  ⟨.clientKeyExchange, identityBody identity⟩

theorem length_identityBody (identity : Bytes) : (identityBody identity).length = 2 + identity.length := by
  rw [identityBody, List.length_append, length_bigEndian]

theorem length_identityBody_le {identity : Bytes} (h : 2 + identity.length ≤ HandshakeHeader.maximumLength) :
    (identityBody identity).length ≤ HandshakeHeader.maximumLength := by
  rw [length_identityBody]
  exact h

theorem ofBody?_identityBody {identity : Bytes} (h : 2 + identity.length ≤ HandshakeHeader.maximumLength) :
    KeyIdentity.ofBody? (identityBody identity) = some identity :=
  KeyIdentity.ofBody?_body (body_identity h)

/-! ### The server's answer -/

section

variable {policy : ServerPolicy} {message : HandshakeMessage} {hello : ClientHello}

theorem run_receiveClientHello_of_error (hread : ClientHello.ofBytes? message.body = some hello)
    {alert : AlertDescription} (hanswer : policy.answer hello standing.entropy = .error alert) :
    (receiveClientHello policy message).run standing.endpoint =
      .error (.sentAlert alert) (standing.say message.bytes).endpoint := by
  have hrefused : (accept (policy.answer hello standing.entropy)).run (standing.say message.bytes).endpoint =
      .error (.sentAlert alert) (standing.say message.bytes).endpoint := by
    rw [hanswer]
    rfl
  rw [receiveClientHello, hread]
  apply (run_bind_of_ok (run_readBody_some hello _)).trans
  apply (run_bind_of_ok (run_remember _ _)).trans
  apply (run_bind_of_ok (EStateM.run_get _)).trans
  exact run_bind_of_error hrefused

/-- A server that has answered a hello, and what it has sent. -/
def answering (message : HandshakeMessage) (terms : Terms) (entropy : Entropy) (body identityHint : Bytes)
    (standing : Standing) : Standing :=
  (((((standing.say message.bytes).settle terms entropy).tell ⟨.serverHello, body⟩).tell
    (hint identityHint)).tell helloDone).reach .waitKeyExchange

theorem outgoing_answering (houtgoing : standing.outgoing = []) (terms : Terms) (entropy : Entropy)
    (body identityHint : Bytes) :
    (standing.answering message terms entropy body identityHint).outgoing =
      (HandshakeMessage.mk .serverHello body).records terms.version.code terms.parameters.plaintextLimit ++
        ((hint identityHint).records terms.version.code terms.parameters.plaintextLimit ++
          helloDone.records terms.version.code terms.parameters.plaintextLimit) := by
  simp only [answering, reach, tell, say, settle, queue, houtgoing, List.nil_append, List.append_assoc]

variable {version : Version} {suite : CipherSuite} {random : HelloRandom} {entropy : Entropy} {body : Bytes} {terms : Terms}

theorem run_receiveClientHello (hclear : standing.encrypter = none) (hsensible : standing.terms.parameters.Sensible)
    (hread : ClientHello.ofBytes? message.body = some hello)
    (hextensions : ∀ entry ∈ hello.extensions.entries, ExtensionMap.WellFormed entry)
    (hanswer : policy.answer hello standing.entropy = .ok (policy.answering hello version suite random, entropy))
    (hbody : (policy.answering hello version suite random).bytes = .ok body)
    (hlength : body.length ≤ HandshakeHeader.maximumLength)
    (hhint : 2 + policy.identityHint.length ≤ HandshakeHeader.maximumLength)
    (hterms : terms = (standing.terms.withClientRandom hello.random).answering policy hello version suite random) :
    (receiveClientHello policy message).run standing.endpoint =
      .ok () (standing.answering message terms entropy body policy.identityHint).endpoint := by
  have hchosen : (accept (policy.answer hello standing.entropy)).run (standing.say message.bytes).endpoint =
      .ok (policy.answering hello version suite random, entropy) (standing.say message.bytes).endpoint := by
    rw [hanswer]
    rfl
  have happlied : (onSession (·.applyServerHello (policy.answering hello version suite random))).run
      ((standing.say message.bytes).settle (standing.terms.withClientRandom hello.random) entropy).endpoint =
        .ok () ((standing.say message.bytes).settle terms entropy).endpoint := by
    apply run_onSession_of_ok (·.applyServerHello (policy.answering hello version suite random))
    rw [Session.applyServerHello_answering _ hextensions]
    subst hterms
    rfl
  have hsettled : ((standing.say message.bytes).settle terms entropy).terms.parameters.Sensible := by
    subst hterms
    exact Terms.sensible_answering (by exact hsensible) _ _ _ _ _
  rw [receiveClientHello, hread]
  apply (run_bind_of_ok (run_readBody_some hello _)).trans
  apply (run_bind_of_ok (run_remember _ _)).trans
  apply (run_bind_of_ok (EStateM.run_get _)).trans
  apply (run_bind_of_ok hchosen).trans
  apply (run_bind_of_ok (EStateM.run_set _ _)).trans
  apply (run_bind_of_ok (run_updateSession _ _)).trans
  apply (run_bind_of_ok happlied).trans
  rw [hbody, body_identity hhint]
  apply (run_bind_of_ok (run_accept_ok _ _)).trans
  apply (run_bind_of_ok (run_sendMessage _ (by exact hclear) (by exact hsettled) ⟨.serverHello, body⟩ hlength)).trans
  apply (run_bind_of_ok (run_accept_ok _ _)).trans
  refine (run_bind_of_ok (run_sendMessage _ (by exact hclear) (by exact hsettled) (hint _)
    (length_identityBody_le hhint))).trans ?_
  exact run_bind_of_ok (run_sendMessage _ (by exact hclear) (by exact hsettled) helloDone (Nat.zero_le _))

end

/-! ### The client's answer -/

section

variable {offer : ClientOffer} {message : HandshakeMessage} {answer : ServerHello}

theorem run_receiveServerHello_of_error (hread : ServerHello.ofBytes? message.body = some answer)
    {alert : AlertDescription} (hcheck : offer.check answer = .error alert) :
    (receiveServerHello offer message).run standing.endpoint =
      .error (.sentAlert alert) (standing.say message.bytes).endpoint := by
  have hrefused : (accept (offer.check answer)).run (standing.say message.bytes).endpoint =
      .error (.sentAlert alert) (standing.say message.bytes).endpoint := by
    rw [hcheck]
    rfl
  rw [receiveServerHello, hread]
  apply (run_bind_of_ok (run_readBody_some answer _)).trans
  apply (run_bind_of_ok (run_remember _ _)).trans
  exact run_bind_of_error hrefused

theorem run_receiveServerHello {policy : ServerPolicy} {hello : ClientHello} {version : Version} {suite : CipherSuite}
    {random : HelloRandom} {terms : Terms}
    (hread : ServerHello.ofBytes? message.body = some (policy.answering hello version suite random))
    (hcheck : offer.check (policy.answering hello version suite random) = .ok ())
    (hextensions : ∀ entry ∈ hello.extensions.entries, ExtensionMap.WellFormed entry)
    (hterms : terms = standing.terms.answering policy hello version suite random) :
    (receiveServerHello offer message).run standing.endpoint =
      .ok () (((standing.say message.bytes).settle terms standing.entropy).reach .waitKeyExchange).endpoint := by
  have happlied : (onSession (·.applyServerHello (policy.answering hello version suite random))).run
      (standing.say message.bytes).endpoint =
        .ok () ((standing.say message.bytes).settle terms standing.entropy).endpoint := by
    apply run_onSession_of_ok (·.applyServerHello (policy.answering hello version suite random))
    rw [Session.applyServerHello_answering _ hextensions]
    subst hterms
    rfl
  have hchecked : (accept (offer.check (policy.answering hello version suite random))).run
      (standing.say message.bytes).endpoint = .ok () (standing.say message.bytes).endpoint := by
    rw [hcheck]
    rfl
  rw [receiveServerHello, hread]
  apply (run_bind_of_ok (run_readBody_some _ _)).trans
  apply (run_bind_of_ok (run_remember _ _)).trans
  apply (run_bind_of_ok hchecked).trans
  exact run_bind_of_ok happlied

theorem run_receiveIdentityHint {hint : Bytes} (hread : KeyIdentity.ofBody? message.body = some hint) :
    (receiveIdentityHint message).run standing.endpoint =
      .ok () ((standing.say message.bytes).reach .waitHelloDone).endpoint := by
  rw [receiveIdentityHint, hread]
  apply (run_bind_of_ok (run_readBody_some _ _)).trans
  exact run_bind_of_ok (run_remember _ _)

theorem exists_receiveServerHelloDone (hclear : standing.encrypter = none) (hopen : standing.decrypter = none)
    (hsensible : standing.terms.parameters.Sensible)
    (hidentity : 2 + standing.terms.identity.length ≤ HandshakeHeader.maximumLength) {params : SecurityParameters}
    (hparams : standing.session.securityParameters? = some params) {context : Protection}
    (hcontext : Protection.create params standing.side.role = .ok context) {said : Bytes}
    (hsaid : standing.transcript = some said) :
    ∃ fragment later entropy data,
      data = context.verifyData standing.side.role (said ++ helloDone.bytes ++
        (keyExchange standing.terms.identity).bytes) ∧
      (receiveServerHelloDone helloDone).run standing.endpoint =
        .ok () ((((((standing.say helloDone.bytes).tell
          (keyExchange standing.terms.identity)).say (finished data).bytes).queue
            [changeCipherSpec standing.terms.version,
              ⟨ContentType.handshake.code, standing.terms.version.code, fragment⟩]).withEncrypter later entropy).reach
                .waitChangeCipher).endpoint ∧
      fragment.length ≤ 96 ∧
      context.unprotect ContentType.handshake.code standing.terms.version.code fragment =
        (.ok (finished data).bytes, later) := by
  have hbody := length_identityBody_le hidentity
  have htold : ((standing.say helloDone.bytes).tell
      (keyExchange standing.terms.identity)).transcript =
        some (said ++ helloDone.bytes ++
          (keyExchange standing.terms.identity).bytes) := by
    simp only [tell, say, queue, hsaid, Option.map_some]
  have hjudge : standing.decrypter.or (some context) = some context := by
    rw [hopen]
    rfl
  obtain ⟨fragment, later, entropy, hrun, hlength, hunprotect⟩ :=
    exists_conclusion ((standing.say helloDone.bytes).tell
      (keyExchange standing.terms.identity)) hclear hsensible hparams hcontext htold hjudge
  refine ⟨fragment, later, entropy, _, rfl, ?_, hlength, hunprotect⟩
  rw [receiveServerHelloDone]
  apply (run_bind_of_ok (run_remember _ _)).trans
  apply (run_bind_of_ok (EStateM.run_get _)).trans
  show EStateM.run (accept (KeyIdentity.body standing.terms.identity) >>= _) _ = _
  rw [body_identity hidentity]
  apply (run_bind_of_ok (run_accept_ok _ _)).trans
  refine (run_bind_of_ok (run_sendMessage (standing.say helloDone.bytes) hclear hsensible
    (keyExchange _) hbody)).trans ?_
  exact hrun _

end

/-! ### The peer's leave -/

theorem run_receiveChangeCipherSpec (hphase : standing.phase = .waitChangeCipher) (hopen : standing.decrypter = none)
    (hsensible : standing.terms.parameters.Sensible) {params : SecurityParameters}
    (hparams : standing.session.securityParameters? = some params) {context : Protection}
    (hcontext : Protection.create params standing.side.role.peer = .ok context) (version : Version) :
    (receiveRecord (changeCipherSpec version)).run standing.endpoint =
      .ok () ((standing.withDecrypter context).reach .waitFinished).endpoint := by
  have hcreated : standing.session.createDecrypter standing.side.role.peer =
      (.ok (), (standing.withDecrypter context).session) := by
    have hnone : standing.session.decrypter = none := hopen
    have hdecoder : standing.session.provider.createDecoder params standing.side.role.peer = .ok context := hcontext
    simp only [Session.createDecrypter, hnone, hparams, hdecoder]
    rfl
  have hswitched : (onSession (·.createDecrypter standing.side.role.peer)).run standing.endpoint =
      .ok () (standing.withDecrypter context).endpoint :=
    run_onSession_of_ok (·.createDecrypter standing.side.role.peer) hcreated
  have hone : changeCipherSpecBody.length ≤ standing.terms.parameters.plaintextLimit :=
    Nat.le_trans (show 1 ≤ 512 by decide) hsensible.1
  have hawaited : ¬ standing.endpoint.phase ≠ .waitChangeCipher := fun h => h hphase
  apply (run_receiveRecord_clear (by exact hopen) hone).trans
  show EStateM.run (if standing.endpoint.phase ≠ .waitChangeCipher then _ else _) _ = _
  rw [if_neg hawaited]
  exact run_bind_of_ok hswitched

theorem run_receive_sealed {context later : Protection} (hcontext : standing.decrypter = some context)
    {version : Version} {fragment : Bytes} {message : HandshakeMessage}
    (hopened : context.unprotect ContentType.handshake.code version.code fragment = (.ok message.bytes, later))
    (hlimit : message.bytes.length ≤ standing.terms.parameters.plaintextLimit)
    (hbody : message.body.length ≤ HandshakeHeader.maximumLength) :
    (receiveRecord ⟨ContentType.handshake.code, version.code, fragment⟩).run standing.endpoint =
      (receiveMessage message).run (standing.withDecrypter later).endpoint := by
  have hdecrypted : standing.endpoint.session.decrypt ContentType.handshake.code version.code fragment =
      (.ok message.bytes, (standing.withDecrypter later).session) := by
    have hsome : standing.endpoint.session.decrypter = some context := hcontext
    have hunprotect : standing.endpoint.session.provider.unprotect context ContentType.handshake.code version.code
        fragment = (.ok message.bytes, later) := hopened
    simp only [Session.decrypt, hsome, hunprotect]
    rfl
  apply (run_receiveRecord hdecrypted hlimit).trans
  exact @run_receiveHandshake_last _ (standing.withDecrypter later).endpoint [] _ _ hbody message.bytes_ne_nil rfl

theorem run_receiveFinished {context : Protection} (hcontext : standing.decrypter = some context) {said : Bytes}
    (hsaid : standing.transcript = some said) {data : VerifyData}
    (hdata : data = context.verifyData standing.side.role.peer said) :
    (receiveFinished (finished data)).run standing.endpoint =
      .ok () (standing.say (finished data).bytes).endpoint := by
  have hjudge : standing.decrypter.or standing.encrypter = some context := by
    rw [hcontext]
    rfl
  have hexpected := verifyData_of_standing standing hsaid hjudge standing.side.role.peer
  have hread : FixedBytes.ofBytes? 12 (finished data).body = some data := FixedBytes.ofBytes?_bytes data
  rw [← hdata] at hexpected
  rw [receiveFinished, hread]
  apply (run_bind_of_ok (run_readBody_some _ _)).trans
  apply (run_bind_of_ok (EStateM.run_get _)).trans
  show EStateM.run (accept (standing.session.verifyData standing.side.role.peer) >>= _) _ = _
  rw [hexpected]
  apply (run_bind_of_ok (run_accept_ok _ _)).trans
  rw [if_neg (fun h => h rfl)]
  rfl

/-! ### The end -/

theorem run_receiveIdentity_of_unknown {policy : ServerPolicy} {message : HandshakeMessage} {identity : Bytes}
    (hread : KeyIdentity.ofBody? message.body = some identity) (hunknown : policy.resolve identity = none) :
    (receiveIdentity policy message).run standing.endpoint =
      .error (.sentAlert .illegalParameter) (standing.say message.bytes).endpoint := by
  rw [receiveIdentity, hread]
  apply (run_bind_of_ok (run_readBody_some _ _)).trans
  apply (run_bind_of_ok (run_remember _ _)).trans
  rw [hunknown]
  rfl

theorem run_receiveIdentity {policy : ServerPolicy} {message : HandshakeMessage} {identity key : Bytes}
    (hread : KeyIdentity.ofBody? message.body = some identity) (hkey : policy.resolve identity = some key) :
    (receiveIdentity policy message).run standing.endpoint =
      .ok () (((standing.say message.bytes).identify identity key).reach .waitChangeCipher).endpoint := by
  rw [receiveIdentity, hread]
  apply (run_bind_of_ok (run_readBody_some _ _)).trans
  apply (run_bind_of_ok (run_remember _ _)).trans
  rw [hkey]
  rfl

section

variable {context : Protection} (hcontext : standing.decrypter = some context) (hphase : standing.phase = .waitFinished)
  {said : Bytes} (hsaid : standing.transcript = some said) {data : VerifyData}
  (hdata : data = context.verifyData standing.side.role.peer said)
include hcontext hphase hsaid hdata

/-- A client is done with the server's Finished. -/
theorem run_receiveMessage_finished {offer : ClientOffer} (hside : standing.side = .client offer) :
    (receiveMessage (finished data)).run standing.endpoint =
      .ok () ((standing.say (finished data).bytes).complete).endpoint := by
  have hreceived := run_receiveFinished standing hcontext hsaid hdata
  have hawaited : (receiveMessage (finished data)).run standing.endpoint =
      (receiveFinished (finished data) >>= fun _ => finish).run standing.endpoint := by
    obtain ⟨phase, side, terms, key, limit, transcript, encrypter, decrypter, done, outgoing, entropy⟩ := standing
    subst hside hphase
    rfl
  rw [hawaited]
  exact run_bind_of_ok hreceived

/-- A server answers the client's Finished and is done. -/
theorem exists_receiveMessage_finished {policy : ServerPolicy} (hside : standing.side = .server policy)
    (hclear : standing.encrypter = none) (hsensible : standing.terms.parameters.Sensible) {params : SecurityParameters}
    (hparams : standing.session.securityParameters? = some params) {own : Protection}
    (hown : Protection.create params standing.side.role = .ok own) :
    ∃ fragment later entropy answer,
      answer = context.verifyData standing.side.role (said ++ (finished data).bytes) ∧
      (receiveMessage (finished data)).run standing.endpoint =
        .ok () (((((standing.say (finished data).bytes).say (finished answer).bytes).queue
          [changeCipherSpec standing.terms.version,
            ⟨ContentType.handshake.code, standing.terms.version.code, fragment⟩]).withEncrypter later
              entropy).complete).endpoint ∧
      fragment.length ≤ 96 ∧
      own.unprotect ContentType.handshake.code standing.terms.version.code fragment =
        (.ok (finished answer).bytes, later) := by
  have hreceived := run_receiveFinished standing hcontext hsaid hdata
  have hawaited : (receiveMessage (finished data)).run standing.endpoint =
      (receiveFinished (finished data) >>= fun _ =>
        sendChangeCipherSpec >>= fun _ => sendFinished >>= fun _ => finish).run standing.endpoint := by
    obtain ⟨phase, side, terms, key, limit, transcript, encrypter, decrypter, done, outgoing, entropy⟩ := standing
    subst hside hphase
    rfl
  have htold : (standing.say (finished data).bytes).transcript = some (said ++ (finished data).bytes) := by
    simp only [say, hsaid, Option.map_some]
  have hjudge : standing.decrypter.or (some own) = some context := by
    rw [hcontext]
    rfl
  obtain ⟨fragment, later, entropy, hrun, hlength, hunprotect⟩ :=
    exists_conclusion (standing.say (finished data).bytes) hclear hsensible hparams hown htold hjudge
  refine ⟨fragment, later, entropy, _, rfl, ?_, hlength, hunprotect⟩
  rw [hawaited]
  apply (run_bind_of_ok hreceived).trans
  exact hrun _

end

end Standing

end PresharedTls
