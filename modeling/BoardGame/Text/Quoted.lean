import BoardGame.Text.Unprintable

/-!
Quoted texts: between double quotes, with short escapes for the quote, the backslash and the common
controls, and a code point in hexadecimal for everything else that cannot be shown.
-/

namespace BoardGame.Text

/-- Lower-case hexadecimal without leading zeros. -/
def hexadecimal (n : Nat) : String := String.ofList (Nat.toDigits 16 n)

def escaped (c : Char) : String :=
  if c = '"' then "\\\""
  else if c = '\\' then "\\\\"
  else if c = '\n' then "\\n"
  else if c = '\r' then "\\r"
  else if c = '\t' then "\\t"
  else if c = '\x00' then "\\0"
  else if isPrintable c then String.singleton c
  else "\\u\x7b" ++ hexadecimal c.toNat ++ "\x7d"

def quoted (s : String) : String := "\"" ++ String.join (s.toList.map escaped) ++ "\""

end BoardGame.Text
