import PresharedTls.Text.Visible

/-!
# Quoted text

Text between double quotes, in one line of visible characters. A backslash stands in front of quotes
and backslashes and in the short forms of the commonest controls; other characters that are not
visible are given by the hexadecimal number of their code point.
-/

namespace PresharedTls.Text

def escape (c : Char) : List Char :=
  if c = '\x00' then ['\\', '0']
  else if c = '\t' then ['\\', 't']
  else if c = '\n' then ['\\', 'n']
  else if c = '\r' then ['\\', 'r']
  else if c = '"' ∨ c = '\\' then ['\\', c]
  else if isVisible c then [c]
  else ['\\', 'u', '{'] ++ Nat.toDigits 16 c.toNat ++ ['}']

def quote (text : List Char) : String :=
  String.ofList ('"' :: text.flatMap escape ++ ['"'])

end PresharedTls.Text
