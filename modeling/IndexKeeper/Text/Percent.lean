import IndexKeeper.Bytes

set_option autoImplicit false

namespace IndexKeeper.Text

-- A malformed escape stays as it is.
def percentDecode : Bytes → Bytes
  | [] => []
  | [a] => [a]
  | [a, b] => [a, b]
  | a :: b :: c :: rest =>
      if a = 0x25 then
        match hexValue? (Char.ofNat b.toNat), hexValue? (Char.ofNat c.toNat) with
        | some high, some low => UInt8.ofNat (16 * high + low) :: percentDecode rest
        | _, _ => a :: percentDecode (b :: c :: rest)
      else a :: percentDecode (b :: c :: rest)

def percentEscape (byte : UInt8) : List Char :=
  let digit (n : Nat) : Char := if n < 10 then Char.ofNat (48 + n) else Char.ofNat (55 + n)
  ['%', digit (byte.toNat / 16), digit (byte.toNat % 16)]

def percentEncode (keep : Char → Bool) (bytes : Bytes) : List Char :=
  bytes.flatMap fun byte =>
    let c := Char.ofNat byte.toNat
    if byte.toNat < 0x80 ∧ keep c then [c] else percentEscape byte

end IndexKeeper.Text
