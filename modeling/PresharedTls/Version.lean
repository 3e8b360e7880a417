/-!
# Protocol versions

The three versions spoken here, in order, with their code points on the wire.
-/

namespace PresharedTls

inductive Version where
  | tls10
  | tls11
  | tls12
  deriving DecidableEq

namespace Version

def code : Version → UInt16
  | tls10 => 0x0301
  | tls11 => 0x0302
  | tls12 => 0x0303

instance : LE Version where
  le a b := a.code ≤ b.code

instance : LT Version where
  lt a b := a.code < b.code

instance (a b : Version) : Decidable (a ≤ b) :=
  inferInstanceAs (Decidable (a.code ≤ b.code))

instance (a b : Version) : Decidable (a < b) :=
  inferInstanceAs (Decidable (a.code < b.code))

def ofCode? (code : UInt16) : Option Version :=
  [tls10, tls11, tls12].find? (·.code = code)

def name : Version → String
  | tls10 => "V1_0"
  | tls11 => "V1_1"
  | tls12 => "V1_2"

/-- The version both ends speak when a client offers the code `offered` to a server that goes up to
`maximum`: anything newer than `maximum` is answered with `maximum`, anything older than the first
version has no answer. -/
def negotiate (offered : UInt16) (maximum : Version) : Option Version :=
  if offered < tls10.code then none
  else if maximum.code ≤ offered then some maximum
  else ofCode? offered

@[simp] theorem ofCode?_code (version : Version) : ofCode? version.code = some version := by
  cases version <;> decide

theorem code_of_ofCode? {code : UInt16} {version : Version} (h : ofCode? code = some version) :
    version.code = code := by
  simpa using List.find?_some h

end Version

end PresharedTls
