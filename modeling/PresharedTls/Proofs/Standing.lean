import PresharedTls.Proofs.Endpoint.Flights
import PresharedTls.Proofs.Negotiated
import PresharedTls.Proofs.Protection.Records

/-!
# Where an endpoint stands

An endpoint between two flights, when the bytes that reached it made up whole messages and it holds no
application data. What it sends from there, and what it makes of a flight, can be written down exactly.
-/

namespace PresharedTls

open Endpoint (sendRecord sendFragmented sendMessage sendChangeCipherSpec sendFinished receiveRecord)

structure Standing where
  phase : Phase
  side : Side
  terms : Terms
  key : Option Bytes
  ciphertextLimit : Nat
  transcript : Option Bytes
  encrypter : Option Protection
  decrypter : Option Protection
  done : Bool
  outgoing : List Record
  entropy : Entropy

namespace Standing

def session (standing : Standing) : Session Protection where
  version := standing.terms.version
  suite := standing.terms.suite
  clientRandom := standing.terms.clientRandom
  serverRandom := standing.terms.serverRandom
  identity := standing.terms.identity
  key := standing.key
  plaintextLimit := standing.terms.parameters.plaintextLimit
  ciphertextLimit := standing.ciphertextLimit
  encryptThenMac := standing.terms.parameters.encryptThenMac
  truncatedHmac := standing.terms.parameters.truncatedHmac
  transcript := standing.transcript
  encrypter := standing.encrypter
  decrypter := standing.decrypter
  handshakeDone := standing.done
  provider := .standard

def endpoint (standing : Standing) : Endpoint Protection where
  phase := standing.phase
  side := standing.side
  session := standing.session
  handshake := []
  outgoing := standing.outgoing
  received := []
  peerClosed := false
  entropy := standing.entropy

def connection (standing : Standing) : Connection Protection :=
  ⟨standing.endpoint, []⟩

def queue (records : List Record) (standing : Standing) : Standing :=
  { standing with outgoing := standing.outgoing ++ records }

def say (message : Bytes) (standing : Standing) : Standing :=
  { standing with transcript := standing.transcript.map (· ++ message) }

/-- A message said and sent before there is an encrypter. -/
def tell (message : HandshakeMessage) (standing : Standing) : Standing :=
  (standing.say message.bytes).queue
    (message.records standing.terms.version.code standing.terms.parameters.plaintextLimit)

def settle (terms : Terms) (entropy : Entropy) (standing : Standing) : Standing :=
  { standing with terms := terms, entropy := entropy }

def reach (phase : Phase) (standing : Standing) : Standing :=
  { standing with phase := phase }

def identify (identity key : Bytes) (standing : Standing) : Standing :=
  { standing with terms := standing.terms.withIdentity identity, key := some key }

def complete (standing : Standing) : Standing :=
  { standing with phase := .connected, done := true, transcript := none }

/-- Another context for what is sent. -/
def withEncrypter (context : Protection) (entropy : Entropy) (standing : Standing) : Standing :=
  { standing with encrypter := some context, entropy := entropy }

def withDecrypter (context : Protection) (standing : Standing) : Standing :=
  { standing with decrypter := some context }

variable (standing : Standing)

/-! ### Sending -/

theorem run_sendRecord (type : ContentType) {plaintext fragment : Bytes} {later : Option Protection} {entropy : Entropy}
    (hencrypt : standing.session.encrypt type.code plaintext standing.entropy =
      (.ok fragment, { standing with encrypter := later }.session, entropy))
    (hlimit : plaintext.length ≤ standing.terms.parameters.plaintextLimit) (hlength : fragment.length < 65536) :
    (sendRecord type plaintext).run standing.endpoint =
      .ok () (queue [⟨type.code, standing.terms.version.code, fragment⟩]
        { standing with encrypter := later, entropy := entropy }).endpoint :=
  Endpoint.run_sendRecord hencrypt hlimit hlength

theorem run_sendRecord_clear (hclear : standing.encrypter = none)
    (hsensible : standing.terms.parameters.plaintextLimit ≤ maximumPlaintext) (type : ContentType) {plaintext : Bytes}
    (hlimit : plaintext.length ≤ standing.terms.parameters.plaintextLimit) :
    (sendRecord type plaintext).run standing.endpoint =
      .ok () (standing.queue [⟨type.code, standing.terms.version.code, plaintext⟩]).endpoint := by
  have hencrypt : standing.session.encrypt type.code plaintext standing.entropy =
      (.ok plaintext, { standing with encrypter := standing.encrypter }.session, standing.entropy) := by
    have hnone : standing.session.encrypter = none := hclear
    simp only [Session.encrypt, hnone]
  apply run_sendRecord standing type hencrypt hlimit
  rw [maximumPlaintext] at hsensible
  omega

theorem run_forM_sendRecord (hclear : standing.encrypter = none)
    (hsensible : standing.terms.parameters.plaintextLimit ≤ maximumPlaintext) (type : ContentType) {parts : List Bytes}
    (hparts : ∀ part ∈ parts, part.length ≤ standing.terms.parameters.plaintextLimit) :
    (parts.forM (sendRecord type)).run standing.endpoint =
      .ok () (standing.queue (parts.map fun part => ⟨type.code, standing.terms.version.code, part⟩)).endpoint := by
  induction parts generalizing standing with
  | nil =>
    rw [List.map_nil, queue, List.append_nil]
    rfl
  | cons part rest ih =>
    have hsent := run_sendRecord_clear standing hclear hsensible type (hparts part List.mem_cons_self)
    have hrest := ih (standing.queue [⟨type.code, standing.terms.version.code, part⟩]) hclear hsensible
      fun other hmem => hparts other (List.mem_cons_of_mem _ hmem)
    show EStateM.run (sendRecord type part >>= fun _ => rest.forM (sendRecord type)) _ = _
    rw [EStateM.run_bind, hsent]
    apply hrest.trans
    simp only [queue, List.append_assoc, List.map_cons]
    rfl

theorem run_sendMessage (hclear : standing.encrypter = none) (hsensible : standing.terms.parameters.Sensible)
    (message : HandshakeMessage) (hbody : message.body.length ≤ HandshakeHeader.maximumLength) :
    (sendMessage message).run standing.endpoint =
      .ok () (standing.tell message).endpoint := by
  have hparts : ∀ part ∈ pieces standing.terms.parameters.plaintextLimit message.bytes,
      part.length ≤ standing.terms.parameters.plaintextLimit := by
    intro part hmem
    exact (length_le_of_mem_pieces hsensible.positive hmem).2
  rw [sendMessage, HandshakeMessage.frame_of_framed (HandshakeMessage.framed_of_le hbody)]
  exact run_forM_sendRecord (standing.say message.bytes) hclear hsensible.2 .handshake hparts

/-! ### Taking and giving leave of the handshake -/

def changeCipherSpec (version : Version) : Record :=
  ⟨ContentType.changeCipherSpec.code, version.code, Endpoint.changeCipherSpecBody⟩

theorem run_sendChangeCipherSpec (hclear : standing.encrypter = none) (hsensible : standing.terms.parameters.Sensible)
    {params : SecurityParameters} (hparams : standing.session.securityParameters? = some params) {context : Protection}
    (hcontext : Protection.create params standing.side.role = .ok context) :
    sendChangeCipherSpec.run standing.endpoint =
      .ok () ((standing.queue [changeCipherSpec standing.terms.version]).withEncrypter context standing.entropy).endpoint := by
  have hone : Endpoint.changeCipherSpecBody.length ≤ standing.terms.parameters.plaintextLimit :=
    Nat.le_trans (show 1 ≤ 512 by decide) hsensible.1
  have hsent := run_sendRecord_clear standing hclear hsensible.2 .changeCipherSpec hone
  have hcreated : (standing.queue [changeCipherSpec standing.terms.version]).session.createEncrypter standing.side.role =
      (.ok (), ((standing.queue [changeCipherSpec standing.terms.version]).withEncrypter context standing.entropy).session) := by
    have hnone : (standing.queue [changeCipherSpec standing.terms.version]).session.encrypter = none := hclear
    have hsame : (standing.queue [changeCipherSpec standing.terms.version]).session.securityParameters? = some params :=
      hparams
    have hencoder : (standing.queue [changeCipherSpec standing.terms.version]).session.provider.createEncoder params
        standing.side.role = .ok context := hcontext
    simp only [Session.createEncrypter, hnone, hsame, hencoder]
    rfl
  rw [sendChangeCipherSpec, Endpoint.step_eq, EStateM.run_bind, hsent]
  exact Endpoint.run_onSession_of_ok (·.createEncrypter standing.side.role) hcreated

theorem verifyData_of_standing {said : Bytes} (hsaid : standing.transcript = some said) {context : Protection}
    (hcontext : standing.decrypter.or standing.encrypter = some context) (sender : Role) :
    standing.session.verifyData sender = .ok (context.verifyData sender said) := by
  have htranscript : standing.session.transcript = some said := hsaid
  have hjudge : standing.session.decrypter.or standing.session.encrypter = some context := hcontext
  simp only [Session.verifyData, htranscript, hjudge]
  rfl

theorem run_sendMessage_sealed {message : HandshakeMessage} (hbody : message.body.length ≤ HandshakeHeader.maximumLength)
    (hlimit : message.bytes.length ≤ standing.terms.parameters.plaintextLimit) {context later : Protection}
    (hcontext : standing.encrypter = some context) {fragment : Bytes} {entropy : Entropy}
    (hprotect : context.protect ContentType.handshake.code standing.terms.version.code message.bytes standing.entropy =
      (.ok fragment, later, entropy)) (hlength : fragment.length < 65536) :
    (sendMessage message).run standing.endpoint =
      .ok () (((standing.say message.bytes).queue
        [⟨ContentType.handshake.code, standing.terms.version.code, fragment⟩]).withEncrypter later entropy).endpoint := by
  have hencrypt : (standing.say message.bytes).session.encrypt ContentType.handshake.code message.bytes standing.entropy =
      (.ok fragment, ((standing.say message.bytes).withEncrypter later entropy).session, entropy) := by
    have hsome : (standing.say message.bytes).session.encrypter = some context := hcontext
    have hsealed : (standing.say message.bytes).session.provider.protect context ContentType.handshake.code
        (standing.say message.bytes).session.version.code message.bytes standing.entropy =
          (.ok fragment, later, entropy) := hprotect
    simp only [Session.encrypt, hsome, hsealed]
    rfl
  have hsent := run_sendRecord (standing.say message.bytes) .handshake hencrypt hlimit hlength
  have hone : pieces standing.terms.parameters.plaintextLimit message.bytes = [message.bytes] :=
    pieces_of_length_le message.bytes_ne_nil hlimit
  rw [sendMessage, HandshakeMessage.frame_of_framed (HandshakeMessage.framed_of_le hbody)]
  show EStateM.run ((pieces standing.terms.parameters.plaintextLimit message.bytes).forM (sendRecord .handshake))
    (standing.say message.bytes).endpoint = _
  rw [hone]
  show EStateM.run (sendRecord .handshake message.bytes >>= fun _ => pure PUnit.unit) _ = _
  rw [EStateM.run_bind, hsent]
  rfl

def finished (data : VerifyData) : HandshakeMessage :=
  ⟨.finished, data.bytes⟩

theorem length_bytes_finished (data : VerifyData) : (finished data).bytes.length = 16 := by
  simp [finished, HandshakeMessage.bytes, data.length_bytes]

theorem run_sendFinished {data : VerifyData} (hdata : standing.session.verifyData standing.side.role = .ok data) :
    sendFinished.run standing.endpoint = (sendMessage (finished data)).run standing.endpoint := by
  rw [sendFinished]
  show EStateM.run (Endpoint.accept (standing.session.verifyData standing.side.role) >>= _) _ = _
  rw [hdata]
  rfl

/-- The end of the last flight of a side: its ChangeCipherSpec, and its Finished as the first record
that is protected. The peer opens it with the context it has made for itself. -/
theorem exists_conclusion (hclear : standing.encrypter = none) (hsensible : standing.terms.parameters.Sensible)
    {params : SecurityParameters} (hparams : standing.session.securityParameters? = some params) {context : Protection}
    (hcontext : Protection.create params standing.side.role = .ok context) {said : Bytes}
    (hsaid : standing.transcript = some said) {judge : Protection}
    (hjudge : standing.decrypter.or (some context) = some judge) :
    ∃ fragment later entropy,
      (∀ next : Unit → Endpoint.Step Protection Unit,
        (sendChangeCipherSpec >>= fun _ => sendFinished >>= next).run standing.endpoint =
          (next ()).run (((standing.say (finished (judge.verifyData standing.side.role said)).bytes).queue
            [changeCipherSpec standing.terms.version,
              ⟨ContentType.handshake.code, standing.terms.version.code, fragment⟩]).withEncrypter later entropy).endpoint) ∧
      fragment.length ≤ 96 ∧
      context.unprotect ContentType.handshake.code standing.terms.version.code fragment =
        (.ok (finished (judge.verifyData standing.side.role said)).bytes, later) := by
  have hswitched := run_sendChangeCipherSpec standing hclear hsensible hparams hcontext
  have hlength := length_bytes_finished (judge.verifyData standing.side.role said)
  obtain ⟨fragment, later, entropy, hprotect, hfragment, hunprotect, -⟩ :=
    Protection.exists_protect (Protection.invertible_of_create hcontext) (Protection.sequence_lt_of_create hcontext)
      ContentType.handshake.code standing.terms.version.code
      (show (finished (judge.verifyData standing.side.role said)).bytes.length ≤ Gcm.maximumPlaintext by rw [hlength]; decide)
      standing.entropy
  refine ⟨fragment, later, entropy, fun next => ?_, by omega, hunprotect⟩
  have hdata : ((standing.queue [changeCipherSpec standing.terms.version]).withEncrypter context
      standing.entropy).session.verifyData standing.side.role = .ok (judge.verifyData standing.side.role said) :=
    verifyData_of_standing (standing.withEncrypter context standing.entropy) hsaid hjudge _
  have hfits : (finished (judge.verifyData standing.side.role said)).bytes.length ≤
      standing.terms.parameters.plaintextLimit := by
    rw [hlength]
    exact Nat.le_trans (by decide) hsensible.1
  have hbody : (finished (judge.verifyData standing.side.role said)).body.length ≤ HandshakeHeader.maximumLength := by
    rw [finished, FixedBytes.length_bytes]
    decide
  have hsent := run_sendMessage_sealed ((standing.queue [changeCipherSpec standing.terms.version]).withEncrypter context
    standing.entropy) hbody hfits rfl hprotect (by omega)
  rw [EStateM.run_bind, hswitched]
  show EStateM.run (sendFinished >>= next) _ = _
  rw [EStateM.run_bind, run_sendFinished _ hdata, hsent]
  simp only [queue, say, withEncrypter, List.append_assoc]
  rfl

end Standing

end PresharedTls
