import PresharedTls.Proofs.Codec.Capacity
import PresharedTls.Proofs.Endpoint.Bargain
import PresharedTls.Proofs.Numbering

/-!
# Endpoints that do not fail by themselves

An endpoint with settings that fit, an identity and a key that fit, and room in its records for what it sends
finds no fault of its own in what it does. Sending fails there for one reason only: the encrypter has used up
its numbers.
-/

namespace PresharedTls

/-- A context without a number for the next record. -/
def Protection.Exhausted (context : Protection) : Prop :=
  sequenceBound ≤ context.sequence

/-! ### Settings that fit -/

/-- An offer that fits a hello. -/
structure ClientOffer.Fits (offer : ClientOffer) : Prop where
  suites_ne_nil : offer.suites ≠ []
  suites : offer.suites.length < 32768
  extensions : ∃ block, offer.extensions.bytes = .ok block ∧ block.length < 65538

/-- A policy with a hint and keys that fit. -/
structure ServerPolicy.Fits (policy : ServerPolicy) : Prop where
  identityHint : policy.identityHint.length < 65536
  keys : ∀ identity key, policy.resolve identity = some key → key.length < 65536

def Side.Fits : Side → Prop
  | client offer => offer.Fits
  | server policy => policy.Fits

/-- Whether there is a key. A client brings it along, and a server looks it up for the client's identity. -/
def Role.isKeyed : Role → Phase → Bool
  | client, _ => true
  | server, .waitChangeCipher => true
  | server, .waitFinished => true
  | server, .connected => true
  | server, _ => false

/-- What a session needs to make contexts. -/
structure Session.Complete (session : Session Protection) : Prop where
  provider : session.provider = .standard
  suite : session.suite.isSome = true
  clientRandom : session.clientRandom.isSome = true
  serverRandom : session.serverRandom.isSome = true
  hasKey : session.key.isSome = true
  key : ∀ key, session.key = some key → key.length < 65536

namespace Endpoint

variable {κ : Type}

/-- An endpoint whose settings, identity and key fit, and that has a key as soon as it needs one. -/
structure Equipped (endpoint : Endpoint κ) : Prop where
  side : endpoint.side.Fits
  identity : endpoint.session.identity.length < 65536
  key : ∀ key, endpoint.session.key = some key → key.length < 65536
  keyed : endpoint.role.isKeyed endpoint.phase = true → endpoint.session.key.isSome = true

theorem Equipped.of_same {endpoint after : Endpoint κ} (h : endpoint.Equipped) (hside : after.side = endpoint.side)
    (hidentity : after.session.identity = endpoint.session.identity) (hkey : after.session.key = endpoint.session.key)
    (hkeyed : endpoint.role.isKeyed after.phase = true → endpoint.role.isKeyed endpoint.phase = true) : after.Equipped := by
  have hrole : after.role = endpoint.role := congrArg Side.role hside
  refine ⟨hside ▸ h.side, hidentity ▸ h.identity, hkey ▸ h.key, ?_⟩
  rw [hrole, hkey]
  exact fun hphase => h.keyed (hkeyed hphase)

theorem Equipped.of_bargain {endpoint after : Endpoint κ} (h : endpoint.Equipped) (hbargain : after.bargain = endpoint.bargain)
    (hphase : after.phase = endpoint.phase) : after.Equipped := by
  refine h.of_same (congrArg Bargain.side hbargain) (congrArg (·.terms.identity) hbargain)
    (congrArg Bargain.key hbargain) ?_
  rw [hphase]
  exact id

/-- An endpoint that cannot send for want of a number. -/
def Mute (endpoint : Endpoint Protection) : Prop :=
  ∃ context, endpoint.session.encrypter = some context ∧ context.Exhausted

/-- An endpoint that cannot open a record for want of a number. -/
def Deaf (endpoint : Endpoint Protection) : Prop :=
  ∃ context, endpoint.session.decrypter = some context ∧ context.Exhausted

variable {data : List Bytes} {endpoint origin after : Endpoint Protection}

/-- An endpoint that goes on, and that has all it needs for that. -/
structure Sturdy (data : List Bytes) (endpoint : Endpoint Protection) : Prop where
  inOrder : endpoint.outline.InOrder data
  sealing : endpoint.session.Sealing
  equipped : endpoint.Equipped

/-- An endpoint that differs from another in its transcript, its queues and the state of its encrypter at most. -/
structure Alike (origin endpoint : Endpoint Protection) : Prop where
  outline : endpoint.outline = origin.outline
  bargain : endpoint.bargain = origin.bargain
  sealing : endpoint.session.Sealing

namespace Alike

theorem refl (h : endpoint.session.Sealing) : endpoint.Alike endpoint :=
  ⟨rfl, rfl, h⟩

theorem trans (h : origin.Alike endpoint) (hafter : endpoint.Alike after) : origin.Alike after :=
  ⟨hafter.outline.trans h.outline, hafter.bargain.trans h.bargain, hafter.sealing⟩

variable (h : origin.Alike endpoint)
include h

theorem role : endpoint.role = origin.role :=
  congrArg (·.role) h.outline

theorem phase : endpoint.phase = origin.phase :=
  congrArg Outline.phase h.outline

theorem plaintextLimit : endpoint.session.plaintextLimit = origin.session.plaintextLimit :=
  congrArg (fun bargain => bargain.terms.parameters.plaintextLimit) h.bargain

theorem complete (horigin : origin.session.Complete) : endpoint.session.Complete := by
  have hkey : endpoint.session.key = origin.session.key := congrArg Bargain.key h.bargain
  refine ⟨h.sealing.provider, ?_, ?_, ?_, hkey ▸ horigin.hasKey, hkey ▸ horigin.key⟩
  · exact (congrArg Outline.hasSuite h.outline).trans horigin.suite
  · exact (congrArg Outline.hasClientRandom h.outline).trans horigin.clientRandom
  · exact (congrArg Outline.hasServerRandom h.outline).trans horigin.serverRandom

theorem equipped (horigin : origin.Equipped) : endpoint.Equipped :=
  horigin.of_bargain h.bargain h.phase

end Alike

theorem sealing_of_change (hchange : Change (fun _ => True) endpoint after) (h : endpoint.session.Sealing) :
    after.session.Sealing :=
  (hchange.speaks h).sealing hchange h

theorem sealing_of_changes {sends : ContentType → Prop} (h : Changes sends origin endpoint) (horigin : origin.session.Sealing) :
    endpoint.session.Sealing :=
  @Changes.keep _ _ origin (fun endpoint => endpoint.session.Sealing)
    (fun _ _ hchange => sealing_of_change (hchange.mono fun _ _ => trivial)) endpoint h horigin

/-- What settles nothing, is not seen and is made of changes leaves an endpoint that is like the one before. -/
theorem ends_alike {α : Type} {step : Step Protection α} {sends : ContentType → Prop} (h : endpoint.session.Sealing)
    (houtline : KeepsOutline endpoint.outline step) (hbargain : KeepsBargain endpoint.bargain step)
    (hchanges : Keeps (Changes sends endpoint) (Changes sends endpoint) step) :
    Ends step endpoint (fun _ => endpoint.Alike) fun _ => endpoint.Alike := by
  refine (((houtline endpoint rfl).and (hbargain endpoint rfl)).and (hchanges endpoint .refl)).mono ?_ ?_
  · rintro _ after ⟨⟨houtline, hbargain⟩, hchanges⟩
    exact ⟨houtline, hbargain, sealing_of_changes hchanges h⟩
  · rintro _ after ⟨⟨houtline, hbargain⟩, hchanges⟩
    exact ⟨houtline, hbargain, sealing_of_changes hchanges h⟩

/-! ### Sending -/

/-- A plaintext within the limit is sent, unless there is no number left for it. -/
theorem ends_sendRecord_of_sealing (h : endpoint.session.Sealing) (type : ContentType) {plaintext : Bytes}
    (hlength : plaintext.length ≤ endpoint.session.plaintextLimit) :
    Ends (sendRecord type plaintext) endpoint (fun _ => endpoint.Alike) fun _ after => endpoint.Mute ∧ after.Mute := by
  have halike := ends_alike h (keepsOutline_sendRecord type plaintext) (keepsBargain_sendRecord type plaintext)
    (@changes_sendRecord _ (fun _ => True) endpoint type trivial plaintext)
  have hmute : Ends (sendRecord type plaintext) endpoint (fun _ _ => True) fun _ after => endpoint.Mute ∧ after.Mute := by
    refine ends_sendRecord_of_limit (fun _ _ _ _ _ _ => trivial) (fun _ _ hfailed => ?_) fun hover =>
      absurd hlength (Nat.not_le.mpr hover)
    cases hcontext : endpoint.session.encrypter with
    | none =>
      have hroom : maximumPlaintext < 65536 := by decide
      have hfits := hlength.trans (le_maximumPlaintext_of_mem h.limited.plaintext)
      exact absurd (Nat.lt_of_le_of_lt hfits hroom) (hfailed plaintext (by rw [Session.encrypt, hcontext]))
    | some context =>
      rcases h.encrypt_cases hcontext type.code endpoint.entropy hlength with
        ⟨fragment, later, entropy, -, hfits, hencrypt⟩ | ⟨hexhausted, hencrypt⟩
      · exact absurd hfits (hfailed fragment (by rw [hencrypt]))
      · rw [hencrypt]
        exact ⟨⟨context, hcontext, hexhausted⟩, context, hcontext, hexhausted⟩
  exact (halike.and hmute).mono (fun _ _ => And.left) fun _ _ => And.right

theorem ends_sendFragmented_of_sealing (h : endpoint.session.Sealing) (type : ContentType) (b : Bytes) :
    Ends (sendFragmented type b) endpoint (fun _ => endpoint.Alike) fun _ after => after.Mute := by
  have hpositive : 0 < endpoint.session.plaintextLimit :=
    Nat.lt_of_lt_of_le (by decide) (le_of_mem_plaintextLimits h.limited.plaintext)
  have hpieces : ∀ piece ∈ pieces endpoint.session.plaintextLimit b, piece.length ≤ endpoint.session.plaintextLimit :=
    fun piece hmem => (length_le_of_mem_pieces hpositive hmem).2
  rw [sendFragmented, ends_get_bind]
  refine ends_forM (fun piece hmem now hnow => ?_) (.refl h)
  have hpiece : piece.length ≤ now.session.plaintextLimit := hnow.plaintextLimit ▸ hpieces piece hmem
  exact (ends_sendRecord_of_sealing hnow.sealing type hpiece).mono (fun _ _ => hnow.trans) fun _ _ => And.right

theorem alike_addToTranscript (h : endpoint.session.Sealing) (message : Bytes) :
    endpoint.Alike { endpoint with session := endpoint.session.addToTranscript message } :=
  ⟨keepsOutline_addToTranscript message endpoint rfl, rfl, sealing_of_change (.said message) h⟩

theorem ends_sendMessage_of_sealing (h : endpoint.session.Sealing) {message : HandshakeMessage} (hframed : message.Framed) :
    Ends (sendMessage message) endpoint (fun _ => endpoint.Alike) fun _ after => after.Mute := by
  have hsaid := alike_addToTranscript h message.bytes
  rw [sendMessage, HandshakeMessage.frame_of_framed hframed, ends_bind]
  show Ends (updateSession _ >>= _) _ _ _
  rw [ends_updateSession_bind]
  exact (ends_sendFragmented_of_sealing hsaid.sealing .handshake message.bytes).mono (fun _ _ => hsaid.trans) fun _ _ => id

end Endpoint

/-! ### Keys -/

/-- A context is not made for one reason only: the suite is newer than the version. -/
theorem Protection.error_of_create {params : SecurityParameters} {sender : Role} {alert : AlertDescription}
    (hkey : params.key.length < 65536) (h : create params sender = .error alert) : alert = .illegalParameter := by
  by_cases hversion : params.version < params.suite.minimumVersion
  · simp only [create, if_pos hversion] at h
    cases h
    rfl
  · obtain ⟨context, hcontext⟩ := exists_create (UInt16.not_lt.mp hversion) hkey sender
    cases hcontext.symm.trans h

namespace Session.Complete

variable {session : Session Protection} {sender : Role} {alert : AlertDescription}

theorem exists_securityParameters (h : session.Complete) :
    ∃ params, session.securityParameters? = some params ∧ params.key.length < 65536 := by
  obtain ⟨suite, hsuite⟩ := Option.isSome_iff_exists.mp h.suite
  obtain ⟨client, hclient⟩ := Option.isSome_iff_exists.mp h.clientRandom
  obtain ⟨server, hserver⟩ := Option.isSome_iff_exists.mp h.serverRandom
  obtain ⟨key, hkey⟩ := Option.isSome_iff_exists.mp h.hasKey
  rw [securityParameters?, hsuite, hclient, hserver, hkey]
  exact ⟨_, rfl, h.key key hkey⟩

theorem error_of_createEncrypter (h : session.Complete) (hnone : session.encrypter = none)
    (herror : (session.createEncrypter sender).1 = .error alert) : alert = .illegalParameter := by
  obtain ⟨params, hparams, hkey⟩ := h.exists_securityParameters
  rw [createEncrypter, hnone, hparams, h.provider] at herror
  cases hcreated : Protection.create params sender with
  | error other =>
    obtain rfl := Protection.error_of_create hkey hcreated
    simpa only [Provider.standard, hcreated, Except.error.injEq, eq_comm] using herror
  | ok context => simp [Provider.standard, hcreated] at herror

theorem error_of_createDecrypter (h : session.Complete) (hnone : session.decrypter = none)
    (herror : (session.createDecrypter sender).1 = .error alert) : alert = .illegalParameter := by
  obtain ⟨params, hparams, hkey⟩ := h.exists_securityParameters
  rw [createDecrypter, hnone, hparams, h.provider] at herror
  cases hcreated : Protection.create params sender with
  | error other =>
    obtain rfl := Protection.error_of_create hkey hcreated
    simpa only [Provider.standard, hcreated, Except.error.injEq, eq_comm] using herror
  | ok context => simp [Provider.standard, hcreated] at herror

end Session.Complete

theorem Session.exists_verifyData {session : Session Protection} (hprovider : session.provider = .standard)
    (htranscript : session.transcript.isSome = true) (hcontext : session.decrypter.isSome = true ∨ session.encrypter.isSome = true)
    (sender : Role) : ∃ verifyData, session.verifyData sender = .ok verifyData := by
  obtain ⟨transcript, htranscript⟩ := Option.isSome_iff_exists.mp htranscript
  obtain ⟨context, hcontext⟩ : ∃ context, session.decrypter.or session.encrypter = some context := by
    rwa [← Option.isSome_iff_exists, Option.isSome_or, Bool.or_eq_true]
  exact ⟨_, by rw [verifyData, htranscript, hcontext, hprovider]; rfl⟩

end PresharedTls
