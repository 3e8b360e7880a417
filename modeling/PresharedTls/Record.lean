import PresharedTls.Framing
import PresharedTls.Reader

/-!
# Records

A record is a content type, a version and a fragment, behind a header of five bytes. The content
type is kept as the byte it is on the wire: a record of unknown type has to pass record protection
before it is refused. A stream of bytes is cut into records by `Record.framing`, which looks at an
announced length before it waits for the fragment.
-/

namespace PresharedTls

inductive ContentType where
  | changeCipherSpec
  | alert
  | handshake
  | applicationData
  deriving DecidableEq

namespace ContentType

def code : ContentType → UInt8
  | changeCipherSpec => 20
  | alert => 21
  | handshake => 22
  | applicationData => 23

def ofCode? (code : UInt8) : Option ContentType :=
  [changeCipherSpec, alert, handshake, applicationData].find? (·.code = code)

def name : ContentType → String
  | changeCipherSpec => "ChangeCipherSpec"
  | alert => "Alert"
  | handshake => "Handshake"
  | applicationData => "ApplicationData"

@[simp] theorem ofCode?_code (type : ContentType) : ofCode? type.code = some type := by
  cases type <;> decide

theorem code_of_ofCode? {code : UInt8} {type : ContentType} (h : ofCode? code = some type) :
    type.code = code := by
  simpa using List.find?_some h

end ContentType

structure RecordHeader where
  typeCode : UInt8
  version : UInt16
  length : UInt16
  deriving DecidableEq

namespace RecordHeader

/-- The header for a fragment of `length` bytes, which has to fit the two bytes of the length. -/
def make (type : ContentType) (version : UInt16) (length : Nat) : Except AlertDescription RecordHeader :=
  if length < 65536 then .ok ⟨type.code, version, UInt16.ofNat length⟩ else .error .internalError

def bytes (header : RecordHeader) : Bytes :=
  header.typeCode :: bigEndian 2 header.version.toNat ++ bigEndian 2 header.length.toNat

/-- The header at the front of `b` and the bytes behind it, once five bytes are there. -/
def read? : Reader RecordHeader
  | type :: major :: minor :: high :: low :: rest =>
    some (⟨type, UInt16.ofNat (ofBigEndian [major, minor]), UInt16.ofNat (ofBigEndian [high, low])⟩, rest)
  | _ => none

theorem length_of_read? {b rest : Bytes} {header : RecordHeader} (h : read? b = some (header, rest)) :
    b.length = rest.length + 5 := by
  unfold read? at h
  split at h
  · cases h
    rfl
  · cases h

/-- Bytes behind the header do not change it. -/
theorem read?_append {b rest : Bytes} {header : RecordHeader} (h : read? b = some (header, rest)) (more : Bytes) :
    read? (b ++ more) = some (header, rest ++ more) := by
  unfold read? at h
  split at h
  · cases h
    rfl
  · cases h

def hexDigit (n : Nat) : Char :=
  if n < 10 then Char.ofNat (48 + n) else Char.ofNat (55 + n)

def hex16 (n : Nat) : String :=
  String.ofList [hexDigit (n / 4096 % 16), hexDigit (n / 256 % 16), hexDigit (n / 16 % 16), hexDigit (n % 16)]

/-- The header as text; a content type without a name is shown as its number. -/
def describe (header : RecordHeader) : String :=
  let type := match ContentType.ofCode? header.typeCode with
    | some type => type.name
    | none => toString header.typeCode.toNat
  let version := hex16 header.version.toNat
  s!"RecordHeader \x7b ContentType: {type}, Version: 0x{version}, Length: {header.length.toNat} \x7d"

end RecordHeader

structure Record where
  typeCode : UInt8
  version : UInt16
  fragment : Bytes
  deriving DecidableEq

namespace Record

/-- The record around a fragment, which has to fit the two bytes of the length. -/
def make (type : ContentType) (version : UInt16) (fragment : Bytes) : Except AlertDescription Record := do
  let header ← RecordHeader.make type version fragment.length
  return ⟨header.typeCode, header.version, fragment⟩

def bytes (record : Record) : Bytes :=
  RecordHeader.bytes ⟨record.typeCode, record.version, UInt16.ofNat record.fragment.length⟩ ++ record.fragment

/-- The first record of `buffer` and the bytes behind it, or none while more bytes are needed. A
header that announces more than `limit` bytes is a fault before any of them is there. -/
def next (limit : Nat) (buffer : Bytes) : Except AlertDescription (Option (Record × Bytes)) :=
  match RecordHeader.read? buffer with
  | none => .ok none
  | some (header, body) =>
    if limit < header.length.toNat then .error .recordOverflow
    else if body.length < header.length.toNat then .ok none
    else .ok (some (⟨header.typeCode, header.version, body.take header.length.toNat⟩,
      body.drop header.length.toNat))

/-- Records of at most `limit` bytes behind their headers. -/
def framing (limit : Nat) : Framing Record where
  next := next limit
  length_lt {buffer rest record} h := by
    unfold next at h
    split at h
    · cases h
    · next header body read =>
      have length := RecordHeader.length_of_read? read
      split at h
      · cases h
      · split at h
        · cases h
        · cases h
          rw [List.length_drop]
          omega
  next_append_of_item {buffer rest record} more h := by
    unfold next at h
    split at h
    · cases h
    · next header body read =>
      split at h
      · cases h
      · split at h
        · cases h
        · next inLimit notShort =>
          cases h
          have enough := Nat.le_of_not_lt notShort
          rw [next, RecordHeader.read?_append read more]
          simp only [inLimit, if_false]
          rw [if_neg (by rw [List.length_append]; omega), List.take_append_of_le_length enough,
            List.drop_append_of_le_length enough]
  next_append_of_fault {buffer fault} more h := by
    unfold next at h
    split at h
    · cases h
    · next header body read =>
      split at h
      · next oversized =>
        cases h
        rw [next, RecordHeader.read?_append read more]
        simp only [oversized, if_true]
      · split at h <;> cases h

end Record

end PresharedTls
