set_option autoImplicit false

namespace IndexKeeper.Http

def decimalBelow? (bound : Nat) (digits : List Char) : Option Nat :=
  if digits.isEmpty ∨ !digits.all Char.isDigit then none
  else
    let n := digits.foldl (fun n c => 10 * n + (c.toNat - 48)) 0
    if n < bound then some n else none

def hostAndPort? (bind : String) : Option (String × Nat) :=
  let chars := bind.toList
  let port := (chars.reverse.takeWhile (· ≠ ':')).reverse
  if port.length = chars.length then none
  else (decimalBelow? 65536 port).map fun n =>
    (String.ofList (chars.take (chars.length - port.length - 1)), n)

def numericHost? (host : String) : Option (List Nat) :=
  match (host.splitOn ".").mapM fun part => decimalBelow? 256 part.toList with
  | some [a, b, c, d] => some [a, b, c, d]
  | _ => none

def isOwnHost (host : String) : Bool :=
  match numericHost? host with
  | some parts => parts = [0, 0, 0, 0] || parts.head? == some 127
  | none => host == "localhost" || host == "[::1]" || host == "[::]"

def canListen (bind : String) : Bool :=
  match hostAndPort? bind with
  | some (host, _) => isOwnHost host
  | none => false

def listenError (bind : String) : String := "Failed to bind " ++ bind

end IndexKeeper.Http
