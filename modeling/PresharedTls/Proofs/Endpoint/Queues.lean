import PresharedTls.Proofs.Endpoint.Unseen

/-!
# Queues are only added to

No step reads the queues of an endpoint. Whatever waits in them when a step begins is there when it
ends, with what the step adds behind it, and changes nothing else. Up to the messages of the handshake
that is a case of what steps do not see.
-/

namespace PresharedTls.Endpoint

variable {κ α : Type} {records : List Record} {data : List Bytes}

/-- The endpoint with more in front of its queues. -/
def behind (records : List Record) (data : List Bytes) (endpoint : Endpoint κ) : Endpoint κ :=
  { endpoint with outgoing := records ++ endpoint.outgoing, received := data ++ endpoint.received }

/-- The relation of an endpoint to one that has more in its queues and is the same otherwise. -/
def Behind (records : List Record) (data : List Bytes) (endpoint other : Endpoint κ) : Prop :=
  other = endpoint.behind records data

/-- A step does the same whatever the queues hold. -/
abbrev IgnoresQueues (records : List Record) (data : List Bytes) (step : Step κ α) : Prop :=
  Corresponds (Behind records data) step step

theorem unseen_behind (records : List Record) (data : List Bytes) : Unseen (behind (κ := κ) records data) where
  phase _ := rfl
  side _ := rfl
  session _ := rfl
  entropy _ := rfl
  enters _ _ := rfl
  updates _ _ := rfl
  draws _ _ := rfl
  queues endpoint more := by simp [behind]

theorem ignoresQueues_get_bind {next : Endpoint κ → Step κ α}
    (hnext : ∀ endpoint, Corresponds (Behind records data) (next endpoint) (next (endpoint.behind records data))) :
    IgnoresQueues records data (get >>= next) :=
  Unseen.overlooks_get_bind hnext

theorem ignoresQueues_refuse (alert : AlertDescription) : IgnoresQueues records data (refuse alert : Step κ α) :=
  Unseen.overlooks_refuse alert

theorem ignoresQueues_onSession (work : Session κ → Except AlertDescription α × Session κ) :
    IgnoresQueues records data (onSession work) :=
  (unseen_behind records data).overlooks_onSession work

theorem ignoresQueues_guard {condition : Prop} [Decidable condition] {alert : AlertDescription}
    {next next' : PUnit → Step κ α} (h : Corresponds (Behind records data) (next ⟨⟩) (next' ⟨⟩)) :
    Corresponds (Behind records data) (if condition then refuse alert >>= next else next ⟨⟩)
      (if condition then refuse alert >>= next' else next' ⟨⟩) := by
  refine Corresponds.ite (fun endpoint other hother => ?_) h
  exact ⟨other, rfl, hother⟩

theorem ignoresQueues_receiveMessage (message : HandshakeMessage) :
    IgnoresQueues records data (receiveMessage (κ := κ) message) :=
  (unseen_behind records data).overlooks_receiveMessage message

/-! ### Records -/

theorem ignoresQueues_forM_refuse (fault : Option AlertDescription) :
    IgnoresQueues records data (fault.forM refuse : Step κ Unit) := by
  cases fault with
  | none => exact Corresponds.pure _
  | some alert => exact ignoresQueues_refuse alert

theorem ignoresQueues_takeMessage (message : HandshakeMessage) :
    IgnoresQueues records data (takeMessage (κ := κ) message) := by
  refine Corresponds.bind (Corresponds.modify fun endpoint other h => ?_) fun _ => ignoresQueues_receiveMessage message
  obtain rfl := h
  rfl

theorem ignoresQueues_receiveHandshake (plaintext : Bytes) :
    IgnoresQueues records data (receiveHandshake (κ := κ) plaintext) := by
  rw [receiveHandshake]
  refine ignoresQueues_guard (ignoresQueues_get_bind fun endpoint => Corresponds.bind (Corresponds.set rfl) fun _ => ?_)
  exact Corresponds.bind (Corresponds.forM ignoresQueues_takeMessage _) fun _ => ignoresQueues_forM_refuse _

theorem ignoresQueues_receiveChangeCipherSpec (plaintext : Bytes) :
    IgnoresQueues records data (receiveChangeCipherSpec (κ := κ) plaintext) := by
  rw [receiveChangeCipherSpec]
  refine ignoresQueues_guard (ignoresQueues_get_bind fun endpoint => ?_)
  refine ignoresQueues_guard (ignoresQueues_guard ?_)
  apply Corresponds.bind (ignoresQueues_onSession (·.createDecrypter endpoint.role.peer))
  intro _
  exact (unseen_behind records data).overlooks_enter .waitFinished

theorem ignoresQueues_receiveApplicationData (plaintext : Bytes) :
    IgnoresQueues records data (receiveApplicationData (κ := κ) plaintext) := by
  rw [receiveApplicationData]
  refine ignoresQueues_get_bind fun endpoint => ignoresQueues_guard (Corresponds.set ?_)
  simp [Behind, behind]

theorem ignoresQueues_receiveAlert (plaintext : Bytes) :
    IgnoresQueues records data (receiveAlert (κ := κ) plaintext) := by
  apply Corresponds.bind (Unseen.overlooks_readBody _)
  intro alert
  refine Corresponds.bind (Corresponds.modify fun endpoint other h => ?_) fun _ => ?_
  · obtain rfl := h
    rfl
  · exact Corresponds.bind ((unseen_behind records data).overlooks_enter .error) fun _ => Corresponds.throw _

theorem ignoresQueues_receiveRecord (record : Record) : IgnoresQueues records data (receiveRecord (κ := κ) record) := by
  rw [receiveRecord]
  apply Corresponds.bind (ignoresQueues_onSession (·.decrypt record.typeCode record.version record.fragment))
  intro plaintext
  refine ignoresQueues_get_bind fun endpoint => ignoresQueues_guard ?_
  split
  · exact ignoresQueues_receiveHandshake plaintext
  · exact ignoresQueues_receiveChangeCipherSpec plaintext
  · exact ignoresQueues_receiveApplicationData plaintext
  · exact ignoresQueues_receiveAlert plaintext
  · exact ignoresQueues_refuse _

theorem ignoresQueues_receiveRecords (records' : Cut Record) :
    IgnoresQueues records data (receiveRecords (κ := κ) records') :=
  Corresponds.bind (Corresponds.forM ignoresQueues_receiveRecord _) fun _ => ignoresQueues_forM_refuse _

/-! ### Failures -/

theorem behind_fail (failure : ConnectionError) (endpoint : Endpoint κ) :
    (endpoint.behind records data).fail failure = (endpoint.fail failure).behind records data :=
  (unseen_behind records data).fail_change failure endpoint

end PresharedTls.Endpoint
