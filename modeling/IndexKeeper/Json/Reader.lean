import IndexKeeper.Bytes
import IndexKeeper.Json.Value

set_option autoImplicit false

namespace IndexKeeper.Json

def isSpace (c : Char) : Bool := c == ' ' || c == '\n' || c == '\t' || c == '\r'

def skipSpaces (text : List Char) : List Char := text.dropWhile isSpace

def hexUnit? : List Char → Option (Nat × List Char)
  | a :: b :: c :: d :: rest =>
      match hexValue? a, hexValue? b, hexValue? c, hexValue? d with
      | some a, some b, some c, some d => some (((16 * a + b) * 16 + c) * 16 + d, rest)
      | _, _, _, _ => none
  | _ => none

def isHigh (unit : Nat) : Bool := decide (0xd800 ≤ unit) && decide (unit ≤ 0xdbff)
def isLow (unit : Nat) : Bool := decide (0xdc00 ≤ unit) && decide (unit ≤ 0xdfff)

def simpleEscape? (c : Char) : Option Char :=
  if c = '"' ∨ c = '\\' ∨ c = '/' then some c
  else if c = 'b' then some (Char.ofNat 8)
  else if c = 'f' then some (Char.ofNat 12)
  else if c = 'n' then some '\n'
  else if c = 'r' then some '\r'
  else if c = 't' then some '\t'
  else none

def escape? : List Char → Option (Option Char × List Char)
  | 'u' :: rest =>
      match hexUnit? rest with
      | none => none
      | some (unit, rest) =>
          if isHigh unit then
            match rest with
            | '\\' :: 'u' :: more => match hexUnit? more with
                | some (low, after) =>
                    if isLow low then
                      some (some (Char.ofNat (0x10000 + (unit - 0xd800) * 0x400 + (low - 0xdc00))),
                        after)
                    else some (none, rest)
                | none => none
            | _ => some (none, rest)
          else if isLow unit then some (none, rest)
          else some (some (Char.ofNat unit), rest)
  | c :: rest => (simpleEscape? c).map fun e => (some e, rest)
  | [] => none

-- The rest of a text after its opening quote; `read` holds its characters, last first, unless one was broken.
def textBody : Nat → Option (List Char) → List Char → Option (Option String × List Char)
  | 0, _, _ => none
  | fuel + 1, read, text =>
      match text with
      | [] => none
      | '"' :: rest => some (read.map fun chars => String.ofList chars.reverse, rest)
      | '\\' :: rest =>
          match escape? rest with
          | none => none
          | some (c, rest) =>
              textBody fuel (match read, c with
                | some chars, some c => some (c :: chars)
                | _, _ => none) rest
      | c :: rest =>
          if c.toNat < 0x20 then none else textBody fuel (read.map (c :: ·)) rest

def text? (rest : List Char) : Option (Option String × List Char) :=
  textBody (rest.length + 1) (some []) rest

def digits (text : List Char) : List Char := text.takeWhile Char.isDigit

def someDigits? (text : List Char) : Option (List Char) :=
  let ds := digits text
  if ds.isEmpty then none else some (text.drop ds.length)

def fraction? : List Char → Option (List Char)
  | '.' :: rest => someDigits? rest
  | text => some text

def exponent? : List Char → Option (List Char)
  | c :: rest =>
      if c = 'e' ∨ c = 'E' then
        match rest with
        | '+' :: rest => someDigits? rest
        | '-' :: rest => someDigits? rest
        | rest => someDigits? rest
      else some (c :: rest)
  | [] => some []

def numeral (ds : List Char) : Nat := ds.foldl (fun n c => 10 * n + (c.toNat - 48)) 0

def number? (text : List Char) : Option (Value × List Char) :=
  let negative := text.head? == some '-'
  let body := if negative then text.drop 1 else text
  let whole := if body.head? == some '0' then ['0'] else digits body
  if whole.isEmpty then none
  else
    let rest := body.drop whole.length
    if whole = ['0'] ∧ rest.head?.any Char.isDigit then none
    else match (fraction? rest).bind exponent? with
      | none => none
      | some after =>
          let n : Int := numeral whole
          if after.length = rest.length ∧ ¬(negative ∧ n = 0) then
            some (.integer (if negative then -n else n), after)
          else some (.decimal (String.ofList (text.take (text.length - after.length))), after)

mutual
def value? : Nat → List Char → Option (Value × List Char)
  | 0, _ => none
  | fuel + 1, text =>
      match skipSpaces text with
      | '"' :: rest => (text? rest).map fun (s, rest) =>
          ((match s with | some s => .text s | none => .brokenText), rest)
      | '[' :: rest =>
          match skipSpaces rest with
          | ']' :: rest => some (.array [], rest)
          | rest => (items? fuel rest).map fun (items, rest) => (.array items, rest)
      | '\x7b' :: rest =>
          match skipSpaces rest with
          | '\x7d' :: rest => some (.object [], rest)
          | rest => (fields? fuel rest).map fun (fields, rest) => (.object fields, rest)
      | 'n' :: 'u' :: 'l' :: 'l' :: rest => some (.null, rest)
      | 't' :: 'r' :: 'u' :: 'e' :: rest => some (.boolean true, rest)
      | 'f' :: 'a' :: 'l' :: 's' :: 'e' :: rest => some (.boolean false, rest)
      | text => number? text
def items? : Nat → List Char → Option (List Value × List Char)
  | 0, _ => none
  | fuel + 1, text =>
      match value? fuel text with
      | none => none
      | some (v, rest) =>
          match skipSpaces rest with
          | ',' :: rest => (items? fuel rest).map fun (vs, rest) => (v :: vs, rest)
          | ']' :: rest => some ([v], rest)
          | _ => none
def fields? : Nat → List Char → Option (List (Option String × Value) × List Char)
  | 0, _ => none
  | fuel + 1, text =>
      match skipSpaces text with
      | '"' :: rest =>
          match text? rest with
          | none => none
          | some (name, rest) =>
              match skipSpaces rest with
              | ':' :: rest =>
                  match value? fuel rest with
                  | none => none
                  | some (v, rest) =>
                      match skipSpaces rest with
                      | ',' :: rest =>
                          (fields? fuel rest).map fun (fs, rest) => ((name, v) :: fs, rest)
                      | '\x7d' :: rest => some ([(name, v)], rest)
                      | _ => none
              | _ => none
      | _ => none
end

def parse? (text : String) : Option Value :=
  let chars := text.toList
  match value? (2 * chars.length + 1) chars with
  | some (v, rest) => if (skipSpaces rest).isEmpty then some v else none
  | none => none

end IndexKeeper.Json
