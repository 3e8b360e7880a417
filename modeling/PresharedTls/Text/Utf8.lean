import PresharedTls.Bytes

/-!
# UTF-8 text

Identities are bytes, but most often they are text. They are shown as UTF-8. Where the bytes are
not, each run that begins a character and does not complete it gives one replacement character, and
so does each byte that cannot begin one.
-/

namespace PresharedTls.Text

/-- U+FFFD. -/
def replacement : Char := Char.ofNat 0xFFFD

/-- A character that has begun. -/
structure Unfinished where
  value : Nat
  missing : Nat
  low : UInt8
  high : UInt8

/-- The characters that are complete at a byte, and the one that is not. -/
abbrev Progress := List Char × Option Unfinished

/-- A byte at which a character begins. The bounds on the byte behind it keep out surrogates, code
points beyond the last, and spellings longer than they need to be. -/
def begin (byte : UInt8) : Progress :=
  let lead (value missing : Nat) (low high : UInt8) : Progress := ([], some ⟨value, missing, low, high⟩)
  let value := byte.toNat
  if value < 0x80 then ([Char.ofNat value], none)
  else if value < 0xC2 then ([replacement], none)
  else if value < 0xE0 then lead (value % 32) 1 0x80 0xBF
  else if value = 0xE0 then lead 0 2 0xA0 0xBF
  else if value = 0xED then lead 13 2 0x80 0x9F
  else if value < 0xF0 then lead (value % 16) 2 0x80 0xBF
  else if value = 0xF0 then lead 0 3 0x90 0xBF
  else if value < 0xF4 then lead (value % 8) 3 0x80 0xBF
  else if value = 0xF4 then lead 4 3 0x80 0x8F
  else ([replacement], none)

/-- A byte behind those that are read. -/
def advance (unfinished : Option Unfinished) (byte : UInt8) : Progress :=
  match unfinished with
  | none => begin byte
  | some ⟨value, missing, low, high⟩ =>
    if low ≤ byte ∧ byte ≤ high then
      let value := value * 64 + byte.toNat % 64
      if missing ≤ 1 then ([Char.ofNat value], none) else ([], some ⟨value, missing - 1, 0x80, 0xBF⟩)
    else
      let (chars, unfinished) := begin byte
      (replacement :: chars, unfinished)

def decodeFrom (unfinished : Option Unfinished) : Bytes → List Char
  | [] => if unfinished.isSome then [replacement] else []
  | byte :: rest =>
    let (chars, unfinished) := advance unfinished byte
    chars ++ decodeFrom unfinished rest

def decode (b : Bytes) : List Char :=
  decodeFrom none b

end PresharedTls.Text
