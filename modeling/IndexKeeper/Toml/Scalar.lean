import IndexKeeper.Bytes
import IndexKeeper.Toml.Value

set_option autoImplicit false

namespace IndexKeeper.Toml

abbrev Reader (α : Type) := List Char → Option (α × List Char)

def isSpace (c : Char) : Bool := c == ' ' || c == '\t'

def skipSpaces (text : List Char) : List Char := text.dropWhile isSpace

def newline? : List Char → Option (List Char)
  | '\n' :: rest => some rest
  | '\r' :: '\n' :: rest => some rest
  | _ => none

def isPlain (c : Char) : Bool :=
  c == '\t' || (decide (0x20 ≤ c.toNat) && c.toNat != 0x7f)

def skipComment : List Char → List Char
  | '#' :: rest => rest.dropWhile isPlain
  | text => text

def skipLayout (text : List Char) : List Char := go (text.length + 1) text
where
  go : Nat → List Char → List Char
    | 0, text => text
    | fuel + 1, text =>
        let text := skipComment (skipSpaces text)
        match newline? text with
        | some rest => go fuel rest
        | none => text

def hexNumber? (digits : List Char) : Option Nat :=
  digits.foldlM (fun value c => (hexValue? c).map (16 * value + ·)) 0

def codePoint? (width : Nat) (text : List Char) : Option (Char × List Char) :=
  if text.length < width then none
  else match hexNumber? (text.take width) with
    | none => none
    | some n => if n.isValidChar then some (Char.ofNat n, text.drop width) else none

def escape? : Reader Char
  | 'b' :: rest => some (Char.ofNat 8, rest)
  | 't' :: rest => some ('\t', rest)
  | 'n' :: rest => some ('\n', rest)
  | 'f' :: rest => some (Char.ofNat 12, rest)
  | 'r' :: rest => some ('\r', rest)
  | '"' :: rest => some ('"', rest)
  | '\\' :: rest => some ('\\', rest)
  | 'u' :: rest => codePoint? 4 rest
  | 'U' :: rest => codePoint? 8 rest
  | _ => none

def basicBody : Nat → List Char → Reader String
  | 0, _, _ => none
  | fuel + 1, read, text =>
      match text with
      | [] => none
      | '"' :: rest => some (String.ofList read.reverse, rest)
      | '\\' :: rest => match escape? rest with
          | some (c, rest) => basicBody fuel (c :: read) rest
          | none => none
      | c :: rest => if isPlain c then basicBody fuel (c :: read) rest else none

def literalBody (text : List Char) : Option (String × List Char) :=
  let body := text.takeWhile fun c => isPlain c && c != '\''
  match text.drop body.length with
  | '\'' :: rest => some (String.ofList body, rest)
  | _ => none

def continuation? (text : List Char) : Option (List Char) :=
  (newline? (skipSpaces text)).map fun rest => go (rest.length + 1) rest
where
  go : Nat → List Char → List Char
    | 0, text => text
    | fuel + 1, text =>
        match newline? (skipSpaces text) with
        | some rest => go fuel rest
        | none => skipSpaces text

-- Up to two quotes may stand directly before the three that close a string.
def closing (quote : Char) (read rest : List Char) : String × List Char :=
  let extra := (rest.takeWhile (· == quote)).length.min 2
  (String.ofList (read.reverse ++ List.replicate extra quote), rest.drop extra)

def multilineBody (quote : Char) (escapes : Bool) : Nat → List Char → Reader String
  | 0, _, _ => none
  | fuel + 1, read, text =>
      let more := multilineBody quote escapes fuel
      match newline? text with
      | some rest => more ('\n' :: read) rest
      | none => match text with
          | [] => none
          | c :: rest =>
              if c = quote then
                if rest.take 2 = [quote, quote] then some (closing quote read (rest.drop 2))
                else more (c :: read) rest
              else if c = '\\' ∧ escapes then
                match continuation? rest with
                | some rest => more read rest
                | none => match escape? rest with
                    | some (e, rest) => more (e :: read) rest
                    | none => none
              else if isPlain c then more (c :: read) rest
              else none

def multiline? (quote : Char) (escapes : Bool) (text : List Char) : Option (String × List Char) :=
  multilineBody quote escapes (text.length + 1) [] ((newline? text).getD text)

def string? : Reader String
  | '"' :: '"' :: '"' :: rest => multiline? '"' true rest
  | '\'' :: '\'' :: '\'' :: rest => multiline? '\'' false rest
  | '"' :: rest => basicBody (rest.length + 1) [] rest
  | '\'' :: rest => literalBody rest
  | _ => none

def digitRun (isDigit : Char → Bool) : List Char → List Char × List Char
  | [] => ([], [])
  | '_' :: d :: rest =>
      if isDigit d then
        let (digits, rest) := digitRun isDigit rest
        (d :: digits, rest)
      else ([], '_' :: d :: rest)
  | c :: rest =>
      if isDigit c then
        let (digits, rest) := digitRun isDigit rest
        (c :: digits, rest)
      else ([], c :: rest)

def digits? (isDigit : Char → Bool) : Reader (List Char)
  | [] => none
  | c :: rest => if isDigit c then some (digitRun isDigit (c :: rest)) else none

def sign : List Char → List Char × List Char
  | '+' :: rest => (['+'], rest)
  | '-' :: rest => (['-'], rest)
  | text => ([], text)

def decimal? (text : List Char) : Option ((List Char × List Char) × List Char) :=
  let (mark, rest) := sign text
  match rest with
  | '0' :: rest => some ((mark, ['0']), rest)
  | _ => (digits? Char.isDigit rest).map fun (digits, rest) => ((mark, digits), rest)

def numeral (base : Nat) (digits : List Char) : Nat :=
  digits.foldl (fun value c => base * value + (hexValue? c).getD 0) 0

def bounded? (i : Int) : Option Value :=
  if -9223372036854775808 ≤ i ∧ i ≤ 9223372036854775807 then some (.integer i) else none

def radix? (base : Nat) (rest : List Char) : Option (Value × List Char) :=
  match digits? (fun c => (hexValue? c).any (· < base)) rest with
  | none => none
  | some (digits, rest) => (bounded? (numeral base digits)).map fun v => (v, rest)

def integer? (text : List Char) : Option (Value × List Char) :=
  match text with
  | '0' :: 'x' :: rest => radix? 16 rest
  | '0' :: 'o' :: rest => radix? 8 rest
  | '0' :: 'b' :: rest => radix? 2 rest
  | _ => match decimal? text with
      | none => none
      | some ((mark, digits), rest) =>
          let n : Int := numeral 10 digits
          (bounded? (if mark = ['-'] then -n else n)).map fun v => (v, rest)

-- Whether `mantissa` times ten to the `exponent` rounds to no finite double.
def overflows (mantissa : Nat) (exponent : Int) : Bool :=
  let places : Int := (Nat.toDigits 10 mantissa).length + exponent
  if mantissa = 0 ∨ places < 300 then false
  else if 320 < places then true
  else
    let least := Nat.pow 2 1024 - Nat.pow 2 970
    if exponent < 0 then decide (least * Nat.pow 10 exponent.natAbs ≤ mantissa)
    else decide (least ≤ mantissa * Nat.pow 10 exponent.natAbs)

def exponent? : Reader Int
  | c :: rest =>
      if c = 'e' ∨ c = 'E' then
        let (mark, rest) := sign rest
        (digits? Char.isDigit rest).map fun (digits, rest) =>
          (if mark = ['-'] then -(numeral 10 digits : Int) else numeral 10 digits, rest)
      else none
  | [] => none

def fraction? : Reader (List Char)
  | '.' :: rest => digits? Char.isDigit rest
  | _ => none

def float? (text : List Char) : Option (Value × List Char) :=
  match decimal? text with
  | none => none
  | some ((mark, whole), rest) =>
      let finish (fraction : List Char) (exponent : Int) (rest : List Char) :=
        if mark ≠ ['-'] ∧ overflows (numeral 10 (whole ++ fraction)) (exponent - fraction.length) then
          none
        else some (Value.float (String.ofList (text.take (text.length - rest.length))), rest)
      match fraction? rest with
      | some (fraction, rest) => match exponent? rest with
          | some (e, rest) => finish fraction e rest
          | none => finish fraction 0 rest
      | none => match exponent? rest with
          | some (e, rest) => finish [] e rest
          | none => none

def specialFloat? (text : List Char) : Option (Value × List Char) :=
  match (sign text).2 with
  | 'i' :: 'n' :: 'f' :: rest => some (.float "inf", rest)
  | 'n' :: 'a' :: 'n' :: rest => some (.float "nan", rest)
  | _ => none

def field? (width low high : Nat) (text : List Char) : Option (Nat × List Char) :=
  let digits := text.take width
  let n := numeral 10 digits
  if digits.length = width ∧ digits.all Char.isDigit ∧ low ≤ n ∧ n ≤ high then
    some (n, text.drop width)
  else none

def expect? (c : Char) : List Char → Option (List Char)
  | d :: rest => if d = c then some rest else none
  | [] => none

def daysIn (year month : Nat) : Nat :=
  if month = 2 then
    if year % 4 = 0 ∧ (year % 100 ≠ 0 ∨ year % 400 = 0) then 29 else 28
  else if [4, 6, 9, 11].contains month then 30
  else 31

def date? (text : List Char) : Option (List Char) := do
  let (year, text) ← field? 4 0 9999 text
  let text ← expect? '-' text
  let (month, text) ← field? 2 1 12 text
  let text ← expect? '-' text
  let (_, text) ← field? 2 1 (daysIn year month) text
  return text

def time? (text : List Char) : Option (List Char) := do
  let (_, text) ← field? 2 0 23 text
  let text ← expect? ':' text
  let (_, text) ← field? 2 0 59 text
  let text ← expect? ':' text
  let (_, text) ← field? 2 0 60 text
  match text with
  | '.' :: d :: rest =>
      if d.isDigit then return rest.dropWhile Char.isDigit else none
  | _ => return text

def offset? (text : List Char) : Option (List Char) :=
  match text with
  | c :: rest =>
      if c = 'Z' ∨ c = 'z' then some rest
      else if c = '+' ∨ c = '-' then do
        let (_, rest) ← field? 2 0 23 rest
        let rest ← expect? ':' rest
        let (_, rest) ← field? 2 0 59 rest
        return rest
      else none
  | [] => none

def moment? (text : List Char) : Option (Value × List Char) :=
  let finish (rest : List Char) : Option (Value × List Char) :=
    some (.moment (String.ofList (text.take (text.length - rest.length))), rest)
  match date? text with
  | none => (time? text).bind finish
  | some rest =>
      match rest with
      | c :: timed =>
          if c = 'T' ∨ c = 't' ∨ c = ' ' then
            match time? timed with
            | some rest => finish ((offset? rest).getD rest)
            | none => finish rest
          else finish rest
      | [] => finish rest

-- Dates are tried first, for they start like numbers; then what has a fraction or exponent.
def number? (text : List Char) : Option (Value × List Char) :=
  (moment? text).orElse fun _ => (float? text).orElse fun _ =>
    (specialFloat? text).orElse fun _ => integer? text

def boolean? : Reader Value
  | 't' :: 'r' :: 'u' :: 'e' :: rest => some (.boolean true, rest)
  | 'f' :: 'a' :: 'l' :: 's' :: 'e' :: rest => some (.boolean false, rest)
  | _ => none

def scalar? (text : List Char) : Option (Value × List Char) :=
  match text with
  | '"' :: _ => (string? text).map fun (s, rest) => (.text s, rest)
  | '\'' :: _ => (string? text).map fun (s, rest) => (.text s, rest)
  | 't' :: _ => boolean? text
  | 'f' :: _ => boolean? text
  | _ => number? text

end IndexKeeper.Toml
