import Mathlib.Data.List.Nodup
import PresharedTls.Proofs.Blame
import PresharedTls.Proofs.Negotiated

/-!
# Taking over a ServerHello

Both ends take over the parameters of a ServerHello, the client from the one it received and the server from the
one it is about to send. Version, suite and random value come last, so they are those of a hello that was taken
over as a whole. The extensions come one by one in the order of their types, and those in front of a malformed one
stay applied (`Session.applyExtensions_cases`). Which order they were put into the map in makes no difference, for
the map does not know it.
-/

namespace PresharedTls

/-! ### Maps by what they hold -/

namespace ExtensionMap

/-- Maps are the same if they have the same data under each type. -/
theorem eq_of_get? {map other : ExtensionMap} (h : ∀ type, map.get? type = other.get? type) : map = other := by
  apply eq_of_perm
  rw [List.perm_ext_iff_of_nodup map.nodup_types.of_map other.nodup_types.of_map]
  intro entry
  rw [← get?_eq_some_iff, ← get?_eq_some_iff, h]

theorem lookup_cons (entry : UInt16 × Bytes) (rest : List (UInt16 × Bytes)) (type : UInt16) :
    (entry :: rest).lookup type = if type = entry.1 then some entry.2 else rest.lookup type := by
  rw [List.lookup_cons]
  by_cases h : type = entry.1
  · simp [h]
  · simp [h, beq_false_of_ne h]

theorem lookup_insertEntry (type : UInt16) (data : Bytes) (entries : List (UInt16 × Bytes)) (other : UInt16) :
    (insertEntry type data entries).lookup other = if other = type then some data else entries.lookup other := by
  induction entries with
  | nil => exact lookup_cons (type, data) [] other
  | cons entry rest ih =>
    obtain ⟨kept, keptData⟩ := entry
    rw [insertEntry]
    split
    · rw [lookup_cons]
    · split
      · next hsame =>
        subst hsame
        by_cases h : other = type <;> simp [lookup_cons, h]
      · next hdifferent =>
        rw [lookup_cons, lookup_cons, ih]
        by_cases h : other = type
        · simp [h, hdifferent]
        · simp [h]

/-- What was put in last under a type is there. -/
theorem get?_ofList (entries : List (UInt16 × Bytes)) (type : UInt16) :
    (ofList entries).get? type = entries.reverse.lookup type := by
  have hfold (map : ExtensionMap) : (entries.foldl (fun map entry => map.insert entry.1 entry.2) map).get? type =
      (entries.reverse.lookup type).or (map.get? type) := by
    induction entries generalizing map with
    | nil => simp
    | cons entry rest ih =>
      have hinsert : (map.insert entry.1 entry.2).get? type = ([entry].lookup type).or (map.get? type) := by
        rw [get?, insert, lookup_insertEntry, lookup_cons]
        by_cases h : type = entry.1 <;> simp [h, get?]
      rw [List.foldl_cons, ih, hinsert, List.reverse_cons, List.lookup_append, Option.or_assoc]
  simpa [ofList, get?, empty] using hfold empty

end ExtensionMap

/-! ### Data that is as it has to be -/

namespace MaxFragmentLength

theorem exists_code_iff {code : UInt8} :
    (∃ length : MaxFragmentLength, length.code = code) ↔ 1 ≤ code.toNat ∧ code.toNat ≤ 4 := by
  constructor
  · intro h
    obtain ⟨length, hcode⟩ := h
    cases length <;> simp [← hcode, MaxFragmentLength.code]
  · intro h
    have hcases : code.toNat = 1 ∨ code.toNat = 2 ∨ code.toNat = 3 ∨ code.toNat = 4 := by omega
    rcases hcases with hcode | hcode | hcode | hcode
    · exact ⟨.bytes512, UInt8.toNat_inj.mp hcode.symm⟩
    · exact ⟨.bytes1024, UInt8.toNat_inj.mp hcode.symm⟩
    · exact ⟨.bytes2048, UInt8.toNat_inj.mp hcode.symm⟩
    · exact ⟨.bytes4096, UInt8.toNat_inj.mp hcode.symm⟩

theorem ofBytes_eq_ok_iff {data : Bytes} {length : MaxFragmentLength} : ofBytes data = .ok length ↔ data = [length.code] := by
  constructor
  · intro h
    unfold ofBytes at h
    split at h
    · next code =>
      split at h
      · next found hfound =>
        obtain rfl := Except.ok.inj h
        have hcode := List.find?_some hfound
        simp_all
      · cases h
    · cases h
  · intro h
    rw [h]
    cases length <;> rfl

theorem limit_eq (length : MaxFragmentLength) : length.limit = 1 <<< (8 + length.code.toNat) := by
  cases length <;> rfl

end MaxFragmentLength

namespace ExtensionMap

/-- Each of the three types that mean something has data that it may have. -/
structure Proper (map : ExtensionMap) : Prop where
  maxFragmentLength : ∀ data, map.get? 1 = some data → ∃ code : UInt8, data = [code] ∧ 1 ≤ code.toNat ∧ code.toNat ≤ 4
  truncatedHmac : ∀ data, map.get? 4 = some data → data = []
  encryptThenMac : ∀ data, map.get? 22 = some data → data = []

variable {type : UInt16} {data : Bytes}

theorem wellFormed_maxFragmentLength_iff :
    WellFormed (1, data) ↔ ∃ code : UInt8, data = [code] ∧ 1 ≤ code.toNat ∧ code.toNat ≤ 4 := by
  have hmeans : WellFormed (1, data) ↔ ∃ length, MaxFragmentLength.ofBytes data = .ok length := Iff.rfl
  rw [hmeans]
  constructor
  · intro h
    obtain ⟨length, hlength⟩ := h
    exact ⟨length.code, MaxFragmentLength.ofBytes_eq_ok_iff.mp hlength, MaxFragmentLength.exists_code_iff.mp ⟨length, rfl⟩⟩
  · intro h
    obtain ⟨code, hdata, hcode⟩ := h
    obtain ⟨length, hlength⟩ := MaxFragmentLength.exists_code_iff.mpr hcode
    exact ⟨length, MaxFragmentLength.ofBytes_eq_ok_iff.mpr (by rw [hdata, hlength])⟩

theorem wellFormed_of_other (h : type ≠ 1) (htruncated : type ≠ 4) (hencrypt : type ≠ 22) : WellFormed (type, data) := by
  have hnone : ExtensionType.ofCode? type = none := by
    cases hcode : ExtensionType.ofCode? type with
    | none => rfl
    | some meant =>
      have hmeant := ExtensionType.code_of_ofCode? hcode
      cases meant with
      | maxFragmentLength => exact absurd hmeant.symm h
      | truncatedHmac => exact absurd hmeant.symm htruncated
      | encryptThenMac => exact absurd hmeant.symm hencrypt
  simp [WellFormed, hnone]

theorem proper_iff {map : ExtensionMap} : map.Proper ↔ ∀ entry ∈ map.entries, WellFormed entry := by
  constructor
  · intro h entry hmem
    have hentry := get?_of_mem hmem
    obtain ⟨type, data⟩ := entry
    by_cases hlimit : type = 1
    · subst hlimit
      exact wellFormed_maxFragmentLength_iff.mpr (h.maxFragmentLength data hentry)
    by_cases htruncated : type = 4
    · subst htruncated
      exact h.truncatedHmac data hentry
    by_cases hencrypt : type = 22
    · subst hencrypt
      exact h.encryptThenMac data hentry
    exact wellFormed_of_other hlimit htruncated hencrypt
  · intro h
    constructor
    · intro data hdata
      exact wellFormed_maxFragmentLength_iff.mp (h _ (get?_eq_some_iff.mp hdata))
    · intro data hdata
      exact h _ (get?_eq_some_iff.mp hdata)
    · intro data hdata
      exact h _ (get?_eq_some_iff.mp hdata)

end ExtensionMap

/-! ### What extensions change -/

namespace Parameters

open ExtensionMap (WellFormed)

variable {entries : List (UInt16 × Bytes)}

/-- An extension sets the flag of its type. -/
theorem flags_extended (parameters : Parameters) (entry : UInt16 × Bytes) :
    (parameters.extended entry).encryptThenMac = (parameters.encryptThenMac || decide (entry.1 = 22)) ∧
      (parameters.extended entry).truncatedHmac = (parameters.truncatedHmac || decide (entry.1 = 4)) := by
  obtain ⟨type, data⟩ := entry
  rw [extended]
  cases hmeant : ExtensionType.ofCode? type with
  | none =>
    have hencrypt : type ≠ 22 := by
      rintro rfl
      cases hmeant
    have htruncated : type ≠ 4 := by
      rintro rfl
      cases hmeant
    simp [hencrypt, htruncated]
  | some meant =>
    obtain rfl := ExtensionType.code_of_ofCode? hmeant
    cases meant with
    | maxFragmentLength => cases MaxFragmentLength.ofBytes data <;> simp [ExtensionType.code]
    | truncatedHmac => simp [ExtensionType.code]
    | encryptThenMac => simp [ExtensionType.code]

/-- A flag that the entries of one type set is set behind a list that has one. -/
theorem flag_foldl_extended {flag : Parameters → Bool} {type : UInt16}
    (hflag : ∀ parameters entry, flag (extended parameters entry) = (flag parameters || decide (entry.1 = type)))
    (parameters : Parameters) :
    flag (entries.foldl extended parameters) = (flag parameters || (entries.lookup type).isSome) := by
  induction entries generalizing parameters with
  | nil => simp
  | cons entry rest ih =>
    rw [List.foldl_cons, ih, hflag, ExtensionMap.lookup_cons]
    by_cases h : entry.1 = type
    · simp [h]
    · simp [h, Ne.symm h]

theorem plaintextLimit_extended_of_ne (parameters : Parameters) {entry : UInt16 × Bytes} (h : entry.1 ≠ 1) :
    (parameters.extended entry).plaintextLimit = parameters.plaintextLimit := by
  rw [extended]
  split
  · next hfound _ => exact absurd (ExtensionType.code_of_ofCode? hfound).symm h
  · rfl
  · rfl
  · rfl

theorem plaintextLimit_foldl_extended_of_ne (parameters : Parameters) (h : ∀ entry ∈ entries, entry.1 ≠ 1) :
    (entries.foldl extended parameters).plaintextLimit = parameters.plaintextLimit := by
  induction entries generalizing parameters with
  | nil => rfl
  | cons entry rest ih =>
    rw [List.foldl_cons, ih _ fun other hmem => h other (List.mem_cons_of_mem _ hmem)]
    exact plaintextLimit_extended_of_ne parameters (h entry List.mem_cons_self)

/-- The one entry that announces a limit sets it, wherever it stands. -/
theorem plaintextLimit_foldl_extended (hascending : entries.Pairwise fun a b => a.1 < b.1) {code : UInt8}
    (hmem : (1, [code]) ∈ entries) (hcode : 1 ≤ code.toNat ∧ code.toNat ≤ 4) (parameters : Parameters) :
    (entries.foldl extended parameters).plaintextLimit = 1 <<< (8 + code.toNat) := by
  obtain ⟨length, rfl⟩ := MaxFragmentLength.exists_code_iff.mpr hcode
  obtain ⟨front, behind, rfl⟩ := List.append_of_mem hmem
  have hbehind : ∀ entry ∈ behind, entry.1 ≠ 1 := by
    intro entry hentry
    have habove := List.rel_of_pairwise_cons (List.pairwise_append.mp hascending).2.1 hentry
    exact (UInt16.ne_of_lt habove).symm
  rw [List.foldl_append, List.foldl_cons, plaintextLimit_foldl_extended_of_ne _ hbehind, ← length.limit_eq]
  have hread : MaxFragmentLength.ofBytes [length.code] = .ok length := MaxFragmentLength.ofBytes_eq_ok_iff.mpr rfl
  have htype : ExtensionType.ofCode? 1 = some .maxFragmentLength := by decide
  simp [extended, hread, htype]

end Parameters

namespace Session

variable {κ : Type} (session : Session κ)

theorem wellFormed_of_applyExtension {session after : Session κ} {type : UInt16} {data : Bytes}
    (h : session.applyExtension type data = .ok after) : ExtensionMap.WellFormed (type, data) := by
  rw [applyExtension] at h
  rw [ExtensionMap.WellFormed]
  split at h
  · next hcode => simp [hcode]
  · next hcode =>
    cases hlength : MaxFragmentLength.ofBytes data with
    | error alert => simp [hlength, Except.map] at h
    | ok length => simp [hcode]
  · next hcode =>
    split at h
    · next hempty => simpa [hcode] using hempty
    · cases h
  · next hcode =>
    split at h
    · next hempty => simpa [hcode] using hempty
    · cases h

/-- All extensions are applied, or those in front of the first that is malformed. -/
theorem applyExtensions_cases (entries : List (UInt16 × Bytes)) :
    (∀ entry ∈ entries, ExtensionMap.WellFormed entry) ∧
        session.applyExtensions entries =
          (.ok (), session.withParameters (entries.foldl .extended session.parameters)) ∨
      ∃ front entry behind, entries = front ++ entry :: behind ∧
        (∀ other ∈ front, ExtensionMap.WellFormed other) ∧ ¬ ExtensionMap.WellFormed entry ∧
        session.applyExtensions entries =
          (.error .illegalParameter, session.withParameters (front.foldl .extended session.parameters)) := by
  induction entries generalizing session with
  | nil => exact .inl ⟨nofun, rfl⟩
  | cons entry rest ih =>
    obtain ⟨type, data⟩ := entry
    cases happly : session.applyExtension type data with
    | error alert =>
      have halert := error_of_applyExtension happly
      have hmalformed : ¬ ExtensionMap.WellFormed (type, data) := by
        intro hwellFormed
        obtain ⟨after, hafter⟩ := exists_applyExtension session hwellFormed
        cases happly.symm.trans hafter
      right
      refine ⟨[], (type, data), rest, rfl, nofun, hmalformed, ?_⟩
      rw [applyExtensions, happly, halert]
      rfl
    | ok after =>
      have hfirst := wellFormed_of_applyExtension happly
      obtain rfl := applyExtension_of_ok happly
      rw [applyExtensions, happly]
      have hrest := ih (session.withParameters (session.parameters.extended (type, data)))
      rcases hrest with ⟨hwellFormed, hrun⟩ | ⟨front, entry, behind, hsplit, hwellFormed, hmalformed, hrun⟩
      · left
        exact ⟨List.forall_mem_cons.mpr ⟨hfirst, hwellFormed⟩, hrun⟩
      · right
        refine ⟨(type, data) :: front, entry, behind, by rw [hsplit, List.cons_append], ?_, hmalformed, hrun⟩
        exact List.forall_mem_cons.mpr ⟨hfirst, hwellFormed⟩

end Session

/-! ### What a hello comes to -/

namespace ServerHello

variable (hello : ServerHello)

def VersionKnown : Prop :=
  ∃ version : Version, version.code = hello.version

def SuiteKnown : Prop :=
  ∃ suite : CipherSuite, suite.code = hello.suite

end ServerHello

namespace ExtensionMap

/-- The limit on plaintexts that the extensions announce, or else `limit`. -/
def limitFrom (map : ExtensionMap) (limit : Nat) : Nat :=
  match map.get? 1 with
  | some [code] => 1 <<< (8 + code.toNat)
  | _ => limit

end ExtensionMap

namespace Session

variable {κ : Type}

/-- The session behind a hello that was taken over. -/
def adopting (session : Session κ) (version : Version) (suite : CipherSuite) (hello : ServerHello) : Session κ :=
  { session with
    version := version
    suite := some suite
    serverRandom := some hello.random
    plaintextLimit := hello.extensions.limitFrom session.plaintextLimit
    encryptThenMac := session.encryptThenMac || (hello.extensions.get? 22).isSome
    truncatedHmac := session.truncatedHmac || (hello.extensions.get? 4).isSome }

/-- How it may end to apply a hello. -/
inductive Outcome (session : Session κ) (hello : ServerHello) : Except AlertDescription Unit × Session κ → Prop where
  | noVersion (hversion : ¬ hello.VersionKnown) : Outcome session hello (.error .protocolVersion, session)
  | noSuite (hversion : hello.VersionKnown) (hsuite : ¬ hello.SuiteKnown) :
      Outcome session hello (.error .illegalParameter, session)
  | malformed (hversion : hello.VersionKnown) {front behind : List (UInt16 × Bytes)}
      (hentries : hello.extensions.entries = front ++ behind)
      (hfront : ∀ entry ∈ front, ExtensionMap.WellFormed entry) (himproper : ¬ hello.extensions.Proper) :
      Outcome session hello (.error .illegalParameter, session.withParameters (front.foldl .extended session.parameters))
  | adopted {version : Version} {suite : CipherSuite} (hversion : version.code = hello.version)
      (hsuite : suite.code = hello.suite) (hproper : hello.extensions.Proper) :
      Outcome session hello (.ok (), session.adopting version suite hello)

variable (session : Session κ) (hello : ServerHello)

theorem withParameters_extensions (hproper : hello.extensions.Proper) (version : Version) (suite : CipherSuite) :
    { session.withParameters (hello.extensions.entries.foldl .extended session.parameters) with
        version := version
        suite := some suite
        serverRandom := some hello.random } = session.adopting version suite hello := by
  have hflags (parameters : Parameters) (entry : UInt16 × Bytes) := parameters.flags_extended entry
  have hencrypt := @Parameters.flag_foldl_extended hello.extensions.entries _ _ (fun p e => (hflags p e).1)
    session.parameters
  have htruncated := @Parameters.flag_foldl_extended hello.extensions.entries _ _ (fun p e => (hflags p e).2)
    session.parameters
  have hlimit : (hello.extensions.entries.foldl Parameters.extended session.parameters).plaintextLimit =
      hello.extensions.limitFrom session.plaintextLimit := by
    cases hannounced : hello.extensions.get? 1 with
    | none =>
      have habsent : ∀ entry ∈ hello.extensions.entries, entry.1 ≠ 1 := by
        intro entry hmem htype
        have hfound := ExtensionMap.get?_of_mem hmem
        rw [htype, hannounced] at hfound
        cases hfound
      rw [Parameters.plaintextLimit_foldl_extended_of_ne _ habsent, ExtensionMap.limitFrom, hannounced]
      rfl
    | some data =>
      obtain ⟨code, rfl, hcode⟩ := hproper.maxFragmentLength data hannounced
      rw [Parameters.plaintextLimit_foldl_extended hello.extensions.ascending
        (ExtensionMap.get?_eq_some_iff.mp hannounced) hcode, ExtensionMap.limitFrom, hannounced]
  simp only [withParameters, adopting, hencrypt, htruncated, hlimit]
  rfl

theorem outcome_applyServerHello : session.Outcome hello (session.applyServerHello hello) := by
  rw [applyServerHello]
  cases hversion : Version.ofCode? hello.version with
  | none =>
    apply Outcome.noVersion
    rintro ⟨version, hcode⟩
    rw [← hcode, Version.ofCode?_code] at hversion
    cases hversion
  | some version =>
    have hcode := Version.code_of_ofCode? hversion
    cases hsuite : CipherSuite.ofCode? hello.suite with
    | none =>
      apply Outcome.noSuite ⟨version, hcode⟩
      rintro ⟨suite, hsuiteCode⟩
      rw [← hsuiteCode, CipherSuite.ofCode?_code] at hsuite
      cases hsuite
    | some suite =>
      have hsuiteCode := CipherSuite.code_of_ofCode? hsuite
      rcases session.applyExtensions_cases hello.extensions.entries with
        ⟨hwellFormed, hrun⟩ | ⟨front, entry, behind, hentries, hfront, hmalformed, hrun⟩
      · have hproper := ExtensionMap.proper_iff.mpr hwellFormed
        simp only [hrun, withParameters_extensions session hello hproper]
        exact .adopted hcode hsuiteCode hproper
      · simp only [hrun]
        refine .malformed ⟨version, hcode⟩ hentries hfront fun hproper => hmalformed ?_
        exact ExtensionMap.proper_iff.mp hproper entry (by simp [hentries])

variable {session hello} {result : Except AlertDescription Unit × Session κ}

/-- The result depends on the hello alone. -/
theorem Outcome.verdict (h : session.Outcome hello result) :
    (result.1 = .ok () ↔ hello.VersionKnown ∧ hello.SuiteKnown ∧ hello.extensions.Proper) ∧
      (result.1 = .error .protocolVersion ↔ ¬ hello.VersionKnown) ∧
      (result.1 = .error .illegalParameter ↔ hello.VersionKnown ∧ ¬ (hello.SuiteKnown ∧ hello.extensions.Proper)) := by
  cases h with
  | noVersion hversion => simp [hversion]
  | noSuite hversion hsuite => simp [hversion, hsuite]
  | malformed hversion hentries hfront himproper => simp [hversion, himproper]
  | @adopted version suite hversion hsuite hproper =>
    have hversionKnown : hello.VersionKnown := ⟨version, hversion⟩
    have hsuiteKnown : hello.SuiteKnown := ⟨suite, hsuite⟩
    simp [hversionKnown, hsuiteKnown, hproper]

theorem Outcome.adopting (h : session.Outcome hello result) (hok : result.1 = .ok ()) :
    ∃ version suite, version.code = hello.version ∧ suite.code = hello.suite ∧
      result.2 = session.adopting version suite hello := by
  cases h with
  | noVersion hversion => cases hok
  | noSuite hversion hsuite => cases hok
  | malformed hversion hentries hfront himproper => cases hok
  | @adopted version suite hversion hsuite hproper => exact ⟨version, suite, hversion, hsuite, rfl⟩

theorem result_applyServerHello {κ' : Type} (session : Session κ) (other : Session κ') (hello : ServerHello) :
    (session.applyServerHello hello).1 = (other.applyServerHello hello).1 := by
  obtain ⟨hok, hnoVersion, hrefused⟩ := (session.outcome_applyServerHello hello).verdict
  obtain ⟨hok', hnoVersion', hrefused'⟩ := (other.outcome_applyServerHello hello).verdict
  by_cases hversion : hello.VersionKnown
  · by_cases hrest : hello.SuiteKnown ∧ hello.extensions.Proper
    · rw [hok.mpr ⟨hversion, hrest⟩, hok'.mpr ⟨hversion, hrest⟩]
    · rw [hrefused.mpr ⟨hversion, hrest⟩, hrefused'.mpr ⟨hversion, hrest⟩]
  · rw [hnoVersion.mpr hversion, hnoVersion'.mpr hversion]

/-- Two ends that hold the same of what was negotiated. -/
structure HoldsSame {κ' : Type} (session : Session κ) (other : Session κ') : Prop where
  version : session.version = other.version
  suite : session.suite = other.suite
  serverRandom : session.serverRandom = other.serverRandom
  parameters : session.parameters = other.parameters

theorem holdsSame_applyServerHello {κ' : Type} {session : Session κ} {other : Session κ'}
    (h : session.parameters = other.parameters) (hok : (session.applyServerHello hello).1 = .ok ()) :
    (session.applyServerHello hello).2.HoldsSame (other.applyServerHello hello).2 := by
  have hok' : (other.applyServerHello hello).1 = .ok () := (result_applyServerHello session other hello).symm.trans hok
  obtain ⟨version, suite, hversion, hsuite, hafter⟩ := (session.outcome_applyServerHello hello).adopting hok
  obtain ⟨version', suite', hversion', hsuite', hafter'⟩ := (other.outcome_applyServerHello hello).adopting hok'
  obtain rfl := Version.code_injective (hversion.trans hversion'.symm)
  obtain rfl : suite = suite' := by simpa using congrArg CipherSuite.ofCode? (hsuite.trans hsuite'.symm)
  simp only [Session.parameters, Parameters.mk.injEq] at h
  rw [hafter, hafter']
  constructor
  · rfl
  · rfl
  · rfl
  · simp [Session.adopting, Session.parameters, h]

/-- The extensions in front of a malformed one leave the limit alone unless a right one was announced. -/
theorem plaintextLimit_of_front {front behind : List (UInt16 × Bytes)}
    (hentries : hello.extensions.entries = front ++ behind)
    (hfront : ∀ entry ∈ front, ExtensionMap.WellFormed entry) (parameters : Parameters) :
    (front.foldl .extended parameters).plaintextLimit = parameters.plaintextLimit ∨
      ∃ code : UInt8, hello.extensions.get? 1 = some [code] ∧ 1 ≤ code.toNat ∧ code.toNat ≤ 4 ∧
        (front.foldl .extended parameters).plaintextLimit = 1 <<< (8 + code.toNat) := by
  by_cases hannounced : ∃ data, (1, data) ∈ front
  · obtain ⟨data, hmem⟩ := hannounced
    obtain ⟨code, rfl, hcode⟩ := ExtensionMap.wellFormed_maxFragmentLength_iff.mp (hfront _ hmem)
    have hascending := hello.extensions.ascending
    rw [hentries] at hascending
    right
    refine ⟨code, ExtensionMap.get?_eq_some_iff.mpr ?_, hcode.1, hcode.2, ?_⟩
    · rw [hentries]
      exact List.mem_append_left _ hmem
    · exact Parameters.plaintextLimit_foldl_extended (List.pairwise_append.mp hascending).1 hmem hcode parameters
  · left
    apply Parameters.plaintextLimit_foldl_extended_of_ne
    intro entry hmem htype
    exact hannounced ⟨entry.2, htype ▸ hmem⟩

end Session

/-- What becomes of any session that a hello is applied to. -/
structure ServerHello.Adopted (hello : ServerHello) : Prop where
  succeeds_iff : ∀ {κ : Type} (session : Session κ), (session.applyServerHello hello).1 = .ok () ↔
    hello.VersionKnown ∧ hello.SuiteKnown ∧ hello.extensions.Proper
  refuses_version_iff : ∀ {κ : Type} (session : Session κ),
    (session.applyServerHello hello).1 = .error .protocolVersion ↔ ¬ hello.VersionKnown
  refuses_rest_iff : ∀ {κ : Type} (session : Session κ), (session.applyServerHello hello).1 = .error .illegalParameter ↔
    hello.VersionKnown ∧ ¬ (hello.SuiteKnown ∧ hello.extensions.Proper)
  adopted : ∀ {κ : Type} (session : Session κ), (session.applyServerHello hello).1 = .ok () →
    ∃ version suite, version.code = hello.version ∧ suite.code = hello.suite ∧
      (session.applyServerHello hello).2 = session.adopting version suite hello
  /-- A failure leaves version, suite and random value alone, and the limit unless a right one was announced. -/
  refused : ∀ {κ : Type} (session : Session κ), (session.applyServerHello hello).1 ≠ .ok () →
    let after := (session.applyServerHello hello).2
    after.version = session.version ∧ after.suite = session.suite ∧ after.serverRandom = session.serverRandom ∧
      (after.plaintextLimit = session.plaintextLimit ∨ ∃ code : UInt8, hello.extensions.get? 1 = some [code] ∧
        1 ≤ code.toNat ∧ code.toNat ≤ 4 ∧ after.plaintextLimit = 1 <<< (8 + code.toNat))
  /-- The key and its identity, the client's random value, the limit on ciphertexts, the transcript, the contexts
  and whether the handshake is done are as they were, whether the hello was taken over or not. -/
  kept : ∀ {κ : Type} (session : Session κ),
    let after := (session.applyServerHello hello).2
    after = { session with
      version := after.version
      suite := after.suite
      serverRandom := after.serverRandom
      plaintextLimit := after.plaintextLimit
      encryptThenMac := after.encryptThenMac
      truncatedHmac := after.truncatedHmac }
  /-- Sessions that began with the same limit and flags come to the same. -/
  alike : ∀ {κ κ' : Type} (session : Session κ) (other : Session κ'), session.parameters = other.parameters →
    (session.applyServerHello hello).1 = (other.applyServerHello hello).1 ∧
      ((session.applyServerHello hello).1 = .ok () →
        (session.applyServerHello hello).2.HoldsSame (other.applyServerHello hello).2)
  /-- The fresh sessions of two ends do, whatever else each of them was made with. -/
  fresh : ∀ {κ κ' : Type} (version version' : Version) (limit limit' : Nat) (provider : Provider κ) (provider' : Provider κ'),
    ((Session.fresh version limit provider).applyServerHello hello).1 = .ok () →
      ((Session.fresh version limit provider).applyServerHello hello).2.HoldsSame
        ((Session.fresh version' limit' provider').applyServerHello hello).2
  /-- The extensions may be put into the map in any order that leaves the same data under each type. -/
  order : ∀ {κ : Type} (session : Session κ) (entries entries' : List (UInt16 × Bytes)),
    (∀ type, entries.reverse.lookup type = entries'.reverse.lookup type) →
    session.applyServerHello { hello with extensions := .ofList entries } =
      session.applyServerHello { hello with extensions := .ofList entries' }

/-- **A ServerHello is taken over as a whole or refused for a reason.** -/
theorem ServerHello.adopted_or_refused (hello : ServerHello) : hello.Adopted where
  succeeds_iff session := (session.outcome_applyServerHello hello).verdict.1
  refuses_version_iff session := (session.outcome_applyServerHello hello).verdict.2.1
  refuses_rest_iff session := (session.outcome_applyServerHello hello).verdict.2.2
  adopted session hok := (session.outcome_applyServerHello hello).adopting hok
  refused session hfailed := by
    have houtcome := session.outcome_applyServerHello hello
    generalize session.applyServerHello hello = result at houtcome hfailed
    cases houtcome with
    | noVersion hversion => simp
    | noSuite hversion hsuite => simp
    | malformed hversion hentries hfront himproper =>
      exact ⟨rfl, rfl, rfl, Session.plaintextLimit_of_front hentries hfront session.parameters⟩
    | adopted hversion hsuite hproper => exact absurd rfl hfailed
  kept session := by
    have houtcome := session.outcome_applyServerHello hello
    generalize session.applyServerHello hello = result at houtcome
    cases houtcome <;> rfl
  alike session other h := ⟨Session.result_applyServerHello session other hello, Session.holdsSame_applyServerHello h⟩
  fresh _ _ _ _ _ _ hok := Session.holdsSame_applyServerHello rfl hok
  order session entries entries' h := by
    have hmaps : ExtensionMap.ofList entries = ExtensionMap.ofList entries' := by
      apply ExtensionMap.eq_of_get?
      intro type
      rw [ExtensionMap.get?_ofList, ExtensionMap.get?_ofList, h]
    rw [hmaps]

end PresharedTls
