import PresharedTls.Alert
import PresharedTls.Reader

/-!
# Hello extensions

The extension block of a hello message is a map from types to data. It is kept in ascending order
of types, so a map has one form and is written in one way. Types nobody here acts on are kept too:
a server decides what to echo and a client compares echoed data byte for byte.
-/

namespace PresharedTls

inductive ExtensionType where
  | maxFragmentLength
  | truncatedHmac
  | encryptThenMac
  deriving DecidableEq

namespace ExtensionType

def code : ExtensionType → UInt16
  | maxFragmentLength => 1
  | truncatedHmac => 4
  | encryptThenMac => 22

def all : List ExtensionType :=
  [maxFragmentLength, truncatedHmac, encryptThenMac]

def ofCode? (code : UInt16) : Option ExtensionType :=
  all.find? (·.code = code)

def name : ExtensionType → String
  | maxFragmentLength => "MaxFragmentLength"
  | truncatedHmac => "TruncatedHmac"
  | encryptThenMac => "EncryptThenMac"

@[simp] theorem ofCode?_code (type : ExtensionType) : ofCode? type.code = some type := by
  cases type <;> decide

theorem code_of_ofCode? {code : UInt16} {type : ExtensionType} (h : ofCode? code = some type) :
    type.code = code := by
  simpa using List.find?_some h

end ExtensionType

inductive MaxFragmentLength where
  | bytes512
  | bytes1024
  | bytes2048
  | bytes4096
  deriving DecidableEq

namespace MaxFragmentLength

def code : MaxFragmentLength → UInt8
  | bytes512 => 1
  | bytes1024 => 2
  | bytes2048 => 3
  | bytes4096 => 4

def limit : MaxFragmentLength → Nat
  | bytes512 => 512
  | bytes1024 => 1024
  | bytes2048 => 2048
  | bytes4096 => 4096

def ofCode? (code : UInt8) : Option MaxFragmentLength :=
  [bytes512, bytes1024, bytes2048, bytes4096].find? (·.code = code)

/-- Extension data holds the code and nothing else. -/
def ofBytes : Bytes → Except AlertDescription MaxFragmentLength
  | [code] =>
    match ofCode? code with
    | some length => .ok length
    | none => .error .illegalParameter
  | _ => .error .illegalParameter

end MaxFragmentLength

/-- A map from extension types to their data, listed in ascending order of types. -/
structure ExtensionMap where
  entries : List (UInt16 × Bytes)
  ascending : entries.Pairwise fun a b => a.1 < b.1
  deriving DecidableEq

namespace ExtensionMap

@[ext] theorem ext_entries {a b : ExtensionMap} (h : a.entries = b.entries) : a = b := by
  cases a
  cases b
  simpa using h

def empty : ExtensionMap :=
  ⟨[], .nil⟩

def isEmpty (map : ExtensionMap) : Bool :=
  map.entries.isEmpty

def types (map : ExtensionMap) : List UInt16 :=
  map.entries.map (·.1)

def get? (map : ExtensionMap) (type : UInt16) : Option Bytes :=
  map.entries.lookup type

/-- Puts an entry into its place, in the stead of one of the same type. -/
def insertEntry (type : UInt16) (data : Bytes) : List (UInt16 × Bytes) → List (UInt16 × Bytes)
  | [] => [(type, data)]
  | (other, kept) :: rest =>
    if type < other then (type, data) :: (other, kept) :: rest
    else if type = other then (type, data) :: rest
    else (other, kept) :: insertEntry type data rest

theorem mem_insertEntry {type : UInt16} {data : Bytes} {entries : List (UInt16 × Bytes)}
    {entry : UInt16 × Bytes} (h : entry ∈ insertEntry type data entries) :
    entry = (type, data) ∨ entry ∈ entries := by
  fun_induction insertEntry type data entries <;> grind

theorem ascending_insertEntry (type : UInt16) (data : Bytes) {entries : List (UInt16 × Bytes)}
    (h : entries.Pairwise fun a b => a.1 < b.1) :
    (insertEntry type data entries).Pairwise fun a b => a.1 < b.1 := by
  induction entries with
  | nil => simp [insertEntry]
  | cons entry rest ih =>
    obtain ⟨other, kept⟩ := entry
    rw [List.pairwise_cons] at h
    unfold insertEntry
    split
    · next below =>
      refine List.pairwise_cons.mpr ⟨fun entry mem => ?_, List.pairwise_cons.mpr h⟩
      rcases List.mem_cons.mp mem with rfl | mem
      · exact below
      · exact UInt16.lt_trans below (h.1 entry mem)
    · next notBelow =>
      split
      · next same =>
        subst same
        exact List.pairwise_cons.mpr h
      · next different =>
        refine List.pairwise_cons.mpr ⟨fun entry mem => ?_, ih h.2⟩
        rcases mem_insertEntry mem with rfl | mem
        · exact UInt16.lt_of_le_of_ne (UInt16.not_lt.mp notBelow) (Ne.symm different)
        · exact h.1 entry mem

def insert (map : ExtensionMap) (type : UInt16) (data : Bytes) : ExtensionMap :=
  ⟨insertEntry type data map.entries, ascending_insertEntry type data map.ascending⟩

def filter (keep : UInt16 → Bool) (map : ExtensionMap) : ExtensionMap :=
  ⟨map.entries.filter fun entry => keep entry.1, map.ascending.filter _⟩

def erase (map : ExtensionMap) (type : UInt16) : ExtensionMap :=
  map.filter (· ≠ type)

def ofList (entries : List (UInt16 × Bytes)) : ExtensionMap :=
  entries.foldl (fun map entry => map.insert entry.1 entry.2) empty

/-! ### Wire form -/

def entryBytes (entry : UInt16 × Bytes) : Bytes :=
  bigEndian 2 entry.1.toNat ++ bigEndian 2 entry.2.length ++ entry.2

/-- The entries one after the other, without the length in front. -/
def body (map : ExtensionMap) : Bytes :=
  map.entries.flatMap entryBytes

/-- The block with its length in front. The empty map is written as nothing at all. -/
def bytes (map : ExtensionMap) : Except AlertDescription Bytes :=
  if map.isEmpty then .ok []
  else if map.entries.all (·.2.length < 65536) && decide (map.body.length < 65536) then
    .ok (bigEndian 2 map.body.length ++ map.body)
  else .error .internalError

/-- Reads entries up to the end of the block into `map`; no type may occur twice. -/
def readEntries (map : ExtensionMap) (b : Bytes) : Option ExtensionMap :=
  match b with
  | [] => some map
  | high :: low :: lengthHigh :: lengthLow :: rest =>
    if rest.length < ofBigEndian [lengthHigh, lengthLow] then none
    else if (map.get? (UInt16.ofNat (ofBigEndian [high, low]))).isSome then none
    else
      readEntries
        (map.insert (UInt16.ofNat (ofBigEndian [high, low])) (rest.take (ofBigEndian [lengthHigh, lengthLow])))
        (rest.drop (ofBigEndian [lengthHigh, lengthLow]))
  | _ => none
termination_by b.length
decreasing_by simp only [List.length_drop, List.length_cons]; omega

/-- Reads an optional block that runs to the end of `b`; an absent block is the empty map. -/
def ofBytes? (b : Bytes) : Option ExtensionMap :=
  if b.isEmpty then some empty
  else (Reader.readAll? (Reader.vector16 0 1) b).bind (readEntries empty)

end ExtensionMap

end PresharedTls
