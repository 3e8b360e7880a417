import PresharedTls.Session

/-!
# The terms of a session

What two ends have to agree on, apart from the key: version, suite, random values, identity, and the
three parameters that extensions set. A hello from the server sets most of them, and it sets the same
in every session that began in the same way.
-/

namespace PresharedTls

structure Parameters where
  plaintextLimit : Nat
  encryptThenMac : Bool
  truncatedHmac : Bool
  deriving DecidableEq

namespace Parameters

def start : Parameters :=
  ⟨maximumPlaintext, false, false⟩

/-- The parameters behind an extension that is well-formed. -/
def extended (parameters : Parameters) (entry : UInt16 × Bytes) : Parameters :=
  match ExtensionType.ofCode? entry.1, MaxFragmentLength.ofBytes entry.2 with
  | some .maxFragmentLength, .ok length => { parameters with plaintextLimit := length.limit }
  | some .encryptThenMac, _ => { parameters with encryptThenMac := true }
  | some .truncatedHmac, _ => { parameters with truncatedHmac := true }
  | _, _ => parameters

end Parameters

structure Terms where
  version : Version
  suite : Option CipherSuite
  clientRandom : Option HelloRandom
  serverRandom : Option HelloRandom
  identity : Bytes
  parameters : Parameters
  deriving DecidableEq

namespace Terms

def start (version : Version) (identity : Bytes) : Terms where
  version := version
  suite := none
  clientRandom := none
  serverRandom := none
  identity := identity
  parameters := .start

def withClientRandom (terms : Terms) (random : HelloRandom) : Terms :=
  { terms with clientRandom := some random }

def withIdentity (terms : Terms) (identity : Bytes) : Terms :=
  { terms with identity := identity }

/-- The terms behind an answer, if it names a version and a suite. -/
def answered (terms : Terms) (answer : ServerHello) : Option Terms := do
  let version ← Version.ofCode? answer.version
  let suite ← CipherSuite.ofCode? answer.suite
  return { terms with
    version := version
    suite := some suite
    serverRandom := some answer.random
    parameters := answer.extensions.entries.foldl .extended terms.parameters }

/-- What sessions had for version and identity before makes no difference to the terms they come to
by the same random value and the same answer, but for the identity. -/
theorem answered_start {version other : Version} {identity otherIdentity : Bytes} {random : HelloRandom}
    {answer : ServerHello} {terms terms' : Terms}
    (h : ((start version identity).withClientRandom random).answered answer = some terms)
    (h' : ((start other otherIdentity).withClientRandom random).answered answer = some terms') :
    terms.withIdentity otherIdentity = terms' := by
  rw [answered] at h h'
  cases hversion : Version.ofCode? answer.version with
  | none => simp [hversion] at h
  | some answeredVersion =>
    cases hsuite : CipherSuite.ofCode? answer.suite with
    | none => simp [hversion, hsuite] at h
    | some suite =>
      simp only [hversion, hsuite, Option.pure_def, Option.bind_eq_bind, Option.bind_some, Option.some.injEq] at h h'
      subst h h'
      rfl

end Terms

namespace Session

variable {κ : Type}

def parameters (session : Session κ) : Parameters :=
  ⟨session.plaintextLimit, session.encryptThenMac, session.truncatedHmac⟩

def terms (session : Session κ) : Terms where
  version := session.version
  suite := session.suite
  clientRandom := session.clientRandom
  serverRandom := session.serverRandom
  identity := session.identity
  parameters := session.parameters

def withParameters (session : Session κ) (parameters : Parameters) : Session κ :=
  { session with
    plaintextLimit := parameters.plaintextLimit
    encryptThenMac := parameters.encryptThenMac
    truncatedHmac := parameters.truncatedHmac }

def withTerms (session : Session κ) (terms : Terms) : Session κ :=
  { session.withParameters terms.parameters with
    version := terms.version
    suite := terms.suite
    clientRandom := terms.clientRandom
    serverRandom := terms.serverRandom
    identity := terms.identity }

theorem applyExtension_of_ok {session after : Session κ} {type : UInt16} {data : Bytes}
    (h : session.applyExtension type data = .ok after) :
    after = session.withParameters (session.parameters.extended (type, data)) := by
  rw [applyExtension] at h
  rw [Parameters.extended]
  split at h
  · next hcode =>
    cases h
    rw [hcode]
    rfl
  · next hcode =>
    cases hlength : MaxFragmentLength.ofBytes data with
    | error alert => simp [hlength, Except.map] at h
    | ok length =>
      simp only [hlength, Except.map, Except.ok.injEq] at h
      subst h
      rw [hcode]
      rfl
  all_goals
    next hcode =>
      split at h
      · cases h
        rw [hcode]
        rfl
      · cases h

/-- Extensions change the parameters, also where one of them is malformed. -/
theorem applyExtensions_eq (session : Session κ) (entries : List (UInt16 × Bytes)) :
    ∃ parameters : Parameters, (session.applyExtensions entries).2 = session.withParameters parameters ∧
      ((session.applyExtensions entries).1 = .ok () → parameters = entries.foldl .extended session.parameters) := by
  induction entries generalizing session with
  | nil => exact ⟨session.parameters, rfl, fun _ => rfl⟩
  | cons entry rest ih =>
    obtain ⟨type, data⟩ := entry
    rw [applyExtensions]
    cases happly : session.applyExtension type data with
    | error alert => exact ⟨session.parameters, rfl, fun h => nomatch h⟩
    | ok after =>
      obtain rfl := applyExtension_of_ok happly
      obtain ⟨parameters, hafter, hparameters⟩ :=
        ih (session.withParameters (session.parameters.extended (type, data)))
      exact ⟨parameters, hafter, hparameters⟩

/-- A hello from the server changes the terms, and if it is accepted to those it answers with. -/
theorem applyServerHello_eq (session : Session κ) (answer : ServerHello) :
    ∃ terms : Terms, (session.applyServerHello answer).2 = session.withTerms terms ∧
      ((session.applyServerHello answer).1 = .ok () → session.terms.answered answer = some terms) := by
  rw [applyServerHello]
  cases hversion : Version.ofCode? answer.version with
  | none => exact ⟨session.terms, rfl, fun h => nomatch h⟩
  | some version =>
    cases hsuite : CipherSuite.ofCode? answer.suite with
    | none => exact ⟨session.terms, rfl, fun h => nomatch h⟩
    | some suite =>
      obtain ⟨parameters, hafter, hparameters⟩ := session.applyExtensions_eq answer.extensions.entries
      rcases hrun : session.applyExtensions answer.extensions.entries with ⟨_ | _, after⟩
      · rw [hrun] at hafter
        obtain rfl : after = session.withParameters parameters := hafter
        exact ⟨{ session.terms with parameters := parameters }, rfl, fun h => nomatch h⟩
      · rw [hrun] at hafter hparameters
        obtain rfl : after = session.withParameters parameters := hafter
        let answered : Terms :=
          ⟨version, some suite, session.clientRandom, some answer.random, session.identity, parameters⟩
        refine ⟨answered, rfl, fun _ => ?_⟩
        have hfold : answer.extensions.entries.foldl .extended session.terms.parameters = parameters :=
          (hparameters rfl).symm
        rw [Terms.answered, hversion, hsuite, hfold]
        rfl

end Session

end PresharedTls
