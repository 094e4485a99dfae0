import IndexKeeper.Text.Blank
import IndexKeeper.Time.Calendar
import IndexKeeper.Time.Instant

set_option autoImplicit false

namespace IndexKeeper.Timestamp

def skipBlanks (text : List Char) : List Char := text.dropWhile Text.isBlank

def numeral (ds : List Char) : Nat := ds.foldl (fun n c => 10 * n + (c.toNat - 48)) 0

def number? (width : Nat) (text : List Char) : Option (Nat × List Char) :=
  let ds := (text.take width).takeWhile Char.isDigit
  if ds.isEmpty then none else some (numeral ds, text.drop ds.length)

def field? (width : Nat) (text : List Char) : Option (Nat × List Char) :=
  number? width (skipBlanks text)

def year? (text : List Char) : Option (Int × List Char) :=
  match skipBlanks text with
  | '-' :: rest => (number? rest.length rest).map fun (n, rest) => (-(n : Int), rest)
  | '+' :: rest => (number? rest.length rest).map fun (n, rest) => ((n : Int), rest)
  | rest => (number? 4 rest).map fun (n, rest) => ((n : Int), rest)

def mark? (c : Char) (text : List Char) : Option (List Char) :=
  match skipBlanks text with
  | first :: rest => if first = c then some rest else none
  | [] => none

def date? (text : List Char) : Option (Date × List Char) := do
  let (year, rest) ← year? text
  let (month, rest) ← field? 2 (← mark? '-' rest)
  let (day, rest) ← field? 2 (← mark? '-' rest)
  return (⟨year, month, day⟩, rest)

structure DayTime where
  hour : Nat
  minute : Nat
  second : Nat
  nanos : Nat
deriving DecidableEq, Repr

def fraction? (text : List Char) : Option (Nat × List Char) :=
  match text with
  | '.' :: rest =>
      let ds := rest.takeWhile Char.isDigit
      if ds.isEmpty then none
      else some (numeral ((ds ++ List.replicate 9 '0').take 9), rest.drop ds.length)
  | _ => some (0, text)

def dayTime? (text : List Char) : Option (DayTime × List Char) := do
  let (hour, rest) ← field? 2 text
  let (minute, rest) ← field? 2 (← mark? ':' rest)
  let (second, rest) ← field? 2 (← mark? ':' rest)
  let (nanos, rest) ← fraction? rest
  return (⟨hour, minute, second, nanos⟩, skipBlanks rest)

def afterDate? (text : List Char) : Option (List Char) :=
  match text with
  | [] => none
  | c :: rest =>
      if c = 'T' ∨ c = 't' then some rest
      else if Text.isBlank c then some (skipBlanks rest)
      else none

def twoDigits? (text : List Char) : Option (Nat × List Char) :=
  match text with
  | a :: b :: rest =>
      if a.isDigit ∧ b.isDigit then some (numeral [a, b], rest) else none
  | _ => none

def signedOffset? (sign : Int) (text : List Char) : Option (Int × List Char) := do
  let (hours, rest) ← twoDigits? text
  let (minutes, rest) ← twoDigits? (rest.dropWhile fun c => c == ':' || Text.isBlank c)
  if 60 ≤ minutes ∨ 24 ≤ hours then none
  return (sign * (3600 * hours + 60 * minutes), rest)

def isMinus (c : Char) : Bool := c == '-' || c == Char.ofNat 0x2212

def offset? (text : List Char) : Option (Int × List Char) :=
  if (text.take 3).map Char.toUpper = ['U', 'T', 'C'] then some (0, text.drop 3)
  else match text with
    | [] => none
    | c :: rest =>
        if c = 'Z' ∨ c = 'z' then some (0, rest)
        else if c = '+' then signedOffset? 1 rest
        else if isMinus c then signedOffset? (-1) rest
        else none

-- A sixtieth second is a leap second: it lies within the second before it.
def DayTime.valid (t : DayTime) : Bool := decide (t.hour < 24 ∧ t.minute < 60 ∧ t.second ≤ 60)

def yearInRange (year : Int) : Bool := decide (-262143 ≤ year ∧ year ≤ 262142)

def instant? (d : Date) (t : DayTime) (offset : Int) : Option Instant :=
  if !d.valid ∨ !t.valid ∨ !yearInRange d.year then none
  else
    let leap := t.second = 60
    let second := if leap then 59 else t.second
    let seconds := 86400 * d.toDays + 3600 * t.hour + 60 * t.minute + second - offset
    if yearInRange (Date.ofDays (seconds / 86400)).year then
      some ⟨seconds, if leap then t.nanos + Instant.nanosPerSecond else t.nanos⟩
    else none

def parse? (text : String) : Option Instant := do
  let (date, rest) ← date? text.toList
  let (time, rest) ← dayTime? (← afterDate? rest)
  let (offset, rest) ← offset? rest
  if skipBlanks rest ≠ [] then none
  instant? date time offset

def padded (width n : Nat) : String :=
  let digits := toString n
  String.ofList (List.replicate (width - digits.length) '0') ++ digits

def renderYear (year : Int) : String :=
  if 0 ≤ year ∧ year ≤ 9999 then padded 4 year.toNat
  else (if year < 0 then "-" else "+") ++ padded 4 year.natAbs

def renderFraction (nanos : Nat) : String :=
  if nanos = 0 then ""
  else if nanos % 1000000 = 0 then "." ++ padded 3 (nanos / 1000000)
  else if nanos % 1000 = 0 then "." ++ padded 6 (nanos / 1000)
  else "." ++ padded 9 nanos

def render (t : Instant) : String :=
  let date := Date.ofDays (t.seconds / 86400)
  let rest := (t.seconds % 86400).toNat
  let leap := Instant.nanosPerSecond ≤ t.nanos
  let second := rest % 60 + if leap then 1 else 0
  renderYear date.year ++ "-" ++ padded 2 date.month ++ "-" ++ padded 2 date.day ++ "T" ++
    padded 2 (rest / 3600) ++ ":" ++ padded 2 (rest / 60 % 60) ++ ":" ++ padded 2 second ++
    renderFraction (t.nanos % Instant.nanosPerSecond) ++ "+00:00"

end IndexKeeper.Timestamp
