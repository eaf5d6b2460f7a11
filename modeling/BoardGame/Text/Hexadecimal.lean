import BoardGame.Binary.Codec

/-! Bytes as text: two hexadecimal digits each. -/

namespace BoardGame.Text

def hexOfBytes (bytes : Bytes) : String :=
  String.ofList (bytes.flatMap fun b =>
    [Nat.digitChar (b.toNat / 16), Nat.digitChar (b.toNat % 16)])

def hexDigit? (c : Char) : Option Nat :=
  if '0' ≤ c ∧ c ≤ '9' then some (c.toNat - '0'.toNat)
  else if 'a' ≤ c ∧ c ≤ 'f' then some (c.toNat - 'a'.toNat + 10)
  else if 'A' ≤ c ∧ c ≤ 'F' then some (c.toNat - 'A'.toNat + 10)
  else none

def bytesOfDigits? : List Char → Option Bytes
  | [] => some []
  | [_] => none
  | a :: b :: rest => do
    let high ← hexDigit? a
    let low ← hexDigit? b
    let bytes ← bytesOfDigits? rest
    return UInt8.ofNat (16 * high + low) :: bytes

def bytesOfHex? (s : String) : Option Bytes := bytesOfDigits? s.toList

end BoardGame.Text
