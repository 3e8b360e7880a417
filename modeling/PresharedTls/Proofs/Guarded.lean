import Mathlib
import PresharedTls.Proofs.Endpoint.Guarded

/-!
# What a connection protects

Along a run, the records that were taken from a connection and those that wait in it are all that it
has sent. While it goes on they are in the clear up to the ChangeCipherSpec and protected behind it, and
each operation keeps that. What a failure adds is one alert, and nothing is added after it.
-/

namespace PresharedTls

variable {κ : Type} {taken now : List Record}

namespace Connection

/-- The records that an operation takes from the connection. -/
def records (connection : Connection κ) : Operation → List Record
  | .takeOutgoing => connection.outgoing
  | _ => []

/-- The records that a run takes from the connection. -/
def departed (connection : Connection κ) : List Operation → List Record
  | [] => []
  | operation :: rest => connection.records operation ++ (connection.operate operation).departed rest

variable {connection other : Connection κ}

/-- A connection that goes on is kept, and one that is over concluded. -/
def Accounted (taken : List Record) (connection : Connection κ) : Prop :=
  connection.toEndpoint.Kept taken ∨ connection.phase.isOver = true ∧ connection.toEndpoint.Concluded taken

theorem Accounted.concluded (h : connection.Accounted taken) : connection.toEndpoint.Concluded taken := by
  rcases h with hkept | ⟨-, hconcluded⟩
  · exact .inl hkept.1
  · exact hconcluded

theorem Accounted.kept (h : connection.Accounted taken) (hlive : connection.phase.isOver = false) :
    connection.toEndpoint.Kept taken := by
  rcases h with hkept | ⟨hover, -⟩
  · exact hkept
  · cases hlive.symm.trans hover

/-- What changes neither side, phase nor session leaves the account as it is. -/
theorem Accounted.of_same (h : connection.Accounted taken) (hside : other.side = connection.side)
    (hphase : other.phase = connection.phase) (hsession : other.session = connection.session)
    (hsent : now ++ other.outgoing = taken ++ connection.outgoing) : other.Accounted now := by
  rcases h with hkept | ⟨hover, hconcluded⟩
  · exact .inl (hkept.of_same hside hphase (hsession ▸ ⟨rfl, rfl⟩) (congrArg _ hsession) hsent)
  · exact .inr ⟨hphase ▸ hover, hconcluded.of_same hside hsession hsent⟩

theorem accounted_perform {step : Endpoint.Step κ Unit}
    (h : Ends step connection.toEndpoint (fun _ => Endpoint.Kept taken) fun _ => Endpoint.Marred taken) :
    (connection.perform step).2.Accounted taken :=
  holds_perform (P := fun after => after.Accounted taken)
    (h.mono (fun _ _ => .inl) fun failure _ hmarred => .inr ⟨rfl, hmarred.fail failure⟩)

theorem Accounted.start (h : connection.Accounted taken) : connection.start.2.Accounted taken := by
  by_cases hidle : connection.phase = .idle
  · have hkept := h.kept (by rw [hidle]; rfl)
    cases hside : connection.side with
    | client offer =>
      rw [start_of_client hidle hside]
      exact accounted_perform (Endpoint.keeps_sendClientHello offer hkept hidle)
    | server policy =>
      rw [start_of_server hidle hside]
      refine accounted_perform ⟨hkept.1.of_same rfl ⟨rfl, rfl⟩ rfl, hkept.2.paired, fun _ hphase => ?_⟩
      cases hphase
  · rw [start_of_not_idle hidle]
    exact h

theorem Accounted.receive (h : connection.Accounted taken) (b : Bytes) : (connection.receive b).2.Accounted taken := by
  by_cases hready : connection.phase.TakesInput
  · rw [receive_of_takesInput hready]
    exact accounted_perform (Endpoint.keeps_receiveRecords _ _ (h.kept hready.2))
  · rw [receive_of_not_takesInput hready]
    exact h

theorem Accounted.send (h : connection.Accounted taken) (data : Bytes) : (connection.send data).2.Accounted taken := by
  rw [Connection.send]
  split
  · exact h
  · next hlive =>
    split
    · exact h
    · exact accounted_perform ((h.kept (Bool.eq_false_iff.mpr hlive)).ends_sendFragmented (by decide) data)

theorem accounted_abandon (h : connection.toEndpoint.Concluded taken) : connection.abandon.Accounted taken :=
  .inr ⟨rfl, h.of_same rfl rfl rfl⟩

/-- A close_notify is one more from the encrypter if there is one. -/
theorem Accounted.close (h : connection.Accounted taken) : connection.close.Accounted taken := by
  rw [Connection.close]
  split
  · exact accounted_abandon h.concluded
  · next hlive =>
    have hkept := h.kept (Bool.eq_false_iff.mpr fun hover => hlive (.inl hover))
    have hsent := Endpoint.keepsIntact_closeNotify _ hkept.1
    exact @accounted_abandon _ _ ⟨_, connection.incoming⟩ (.inl hsent.after)

theorem Accounted.operate (h : connection.Accounted taken) (operation : Operation) :
    (connection.operate operation).Accounted (taken ++ connection.records operation) := by
  cases operation with
  | takeOutgoing => exact h.of_same rfl rfl rfl (List.append_nil _)
  | start => exact (List.append_nil taken).symm ▸ h.start
  | receive b => exact (List.append_nil taken).symm ▸ h.receive b
  | send data => exact (List.append_nil taken).symm ▸ h.send data
  | read =>
    refine (List.append_nil taken).symm ▸ ?_
    simp only [Connection.operate, Connection.read]
    split
    · exact h
    · exact h.of_same rfl rfl rfl rfl
  | close => exact (List.append_nil taken).symm ▸ h.close
  | abandon => exact (List.append_nil taken).symm ▸ accounted_abandon h.concluded
  | reseed entropy => exact (List.append_nil taken).symm ▸ h.of_same rfl rfl rfl rfl

theorem Accounted.run (h : connection.Accounted taken) (operations : List Operation) :
    (connection.run operations).Accounted (taken ++ connection.departed operations) := by
  induction operations generalizing taken connection with
  | nil => exact (List.append_nil taken).symm ▸ h
  | cons operation rest ih =>
    rw [departed, ← List.append_assoc]
    exact ih (h.operate operation)

end Connection

/-- A connection that was just made has sent nothing. -/
theorem Connection.accounted_fresh {side : Side} {session : Session κ} {entropy : Entropy}
    (hpaired : session.provider.Paired) (hclear : session.encrypter = none) :
    (Connection.fresh side session entropy).Accounted [] := by
  refine .inl ⟨.inl ⟨hclear, fun _ hmem => absurd hmem List.not_mem_nil⟩, hpaired, fun _ hphase => ?_⟩
  cases hphase

theorem Configuration.accounted {configuration : Configuration κ} (hpaired : configuration.provider.Paired)
    {entropy : Entropy} {connection : Connection κ} (hmade : configuration.connection entropy = .ok connection) :
    connection.Accounted [] := by
  cases configuration with
  | client settings =>
    obtain rfl := Except.ok.inj hmade
    simp only [ClientSettings.connection]
    split
    · exact Connection.accounted_fresh hpaired rfl
    · exact Connection.accounted_fresh hpaired rfl
  | server settings =>
    simp only [Configuration.connection, ServerSettings.connection] at hmade
    split at hmade
    · cases hmade
    · obtain rfl := Except.ok.inj hmade
      exact Connection.accounted_fresh hpaired rfl

theorem Provider.paired_standard : standard.Paired := by
  intro params sender context h
  simp only [standard, Protection.create] at h ⊢
  split at h
  · cases h
  · next hnewer =>
    rw [if_neg hnewer]
    cases hsecret : params.masterSecret with
    | error alert =>
      rw [hsecret] at h
      cases h
    | ok masterSecret => exact ⟨_, rfl⟩

/-- Whatever happens to a connection, all records behind its ChangeCipherSpec were made by its encrypter,
except where a client cannot make that. Such a client is over, and at most the alert that says so is
behind the ChangeCipherSpec, in the clear. -/
theorem Configuration.protects_behind_changeCipherSpec {configuration : Configuration Protection}
    (hprovider : configuration.provider = .standard) {entropy : Entropy} {connection : Connection Protection}
    (hmade : configuration.connection entropy = .ok connection) (operations : List Operation) :
    (connection.run operations).Intact (connection.departed operations) ∨
      configuration.role = .client ∧ (connection.run operations).phase.isOver = true ∧
        ∃ rear, (connection.run operations).Exposed (connection.departed operations) rear ∧
          (rear = [] ∨ ∃ version alert, rear = [⟨ContentType.alert.code, version, (Alert.fatal alert).bytes⟩]) := by
  have hpaired : configuration.provider.Paired := hprovider ▸ Provider.paired_standard
  rcases (configuration.accounted hpaired hmade).run operations with hkept | ⟨hover, hconcluded⟩
  · exact .inl hkept.1
  · refine hconcluded.imp id fun ⟨hclient, hexposed⟩ => ⟨?_, hover, hexposed⟩
    exact (Connection.configured_run hmade operations).1.symm.trans hclient

theorem CipherSuite.all_ne_nil : all ≠ [] := by
  decide

/-- A client that has no key. -/
def keylessClient : ClientSettings Protection where
  provider := .standard
  suites_ne_nil := CipherSuite.all_ne_nil

/-- A ServerHello for TLS 1.2 and its ServerHelloDone, each in a record. -/
def usualGreeting : Bytes :=
  [22, 3, 3, 0, 42, 2, 0, 0, 38, 3, 3] ++ List.replicate 32 9 ++ [0, 0, 0x8C, 0] ++ [22, 3, 3, 0, 4, 14, 0, 0, 0]

def keylessRun : List Operation :=
  [.start, .takeOutgoing, .receive usualGreeting]

/-- Its alert is not protected. -/
theorem outgoing_keylessRun : ((keylessClient.connection ⟨fun _ => 7, 0⟩).run keylessRun).outgoing =
    [⟨22, 0x0303, [16, 0, 0, 2, 0, 0]⟩, ⟨20, 0x0303, [1]⟩, ⟨21, 0x0303, [2, 80]⟩] := by
  cbv

theorem protects_behind_changeCipherSpec_keyless :
    ((keylessClient.connection ⟨fun _ => 7, 0⟩).run keylessRun).phase.isOver = true ∧
      ∃ rear, ((keylessClient.connection ⟨fun _ => 7, 0⟩).run keylessRun).Exposed
          ((keylessClient.connection ⟨fun _ => 7, 0⟩).departed keylessRun) rear ∧
        (rear = [] ∨ ∃ version alert, rear = [⟨ContentType.alert.code, version, (Alert.fatal alert).bytes⟩]) := by
  have hall := @Configuration.protects_behind_changeCipherSpec (.client keylessClient) rfl ⟨fun _ => 7, 0⟩ _ rfl keylessRun
  refine (hall.resolve_left ?_).2
  rintro (⟨-, hunswitched⟩ | ⟨_, _, _, _, context, _, _, hcontext, _⟩)
  · have hmem := List.mem_append_right ((keylessClient.connection ⟨fun _ => 7, 0⟩).departed keylessRun)
      (outgoing_keylessRun ▸ List.mem_cons_of_mem _ List.mem_cons_self)
    exact hunswitched _ hmem rfl
  · have hclear : ((keylessClient.connection ⟨fun _ => 7, 0⟩).run keylessRun).session.encrypter = none := by cbv
    cases hclear.symm.trans hcontext

end PresharedTls
