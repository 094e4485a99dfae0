set_option autoImplicit false

namespace IndexKeeper.Shell

abbrev Marked := Char × Bool

inductive Parameter where
  | arguments
  | joined
  | count
  | process
  | status
  | argument (n : Nat)
  | variable (name : String)
deriving DecidableEq, Repr

structure Cut where
  atFront : Bool
  longest : Bool
  pattern : List Marked
deriving DecidableEq, Repr

inductive Piece where
  | text (chars : List Char) (quoted : Bool)
  | value (parameter : Parameter) (cut : Option Cut) (quoted : Bool)
deriving DecidableEq, Repr

abbrev Word := List Piece

inductive Token where
  | word (w : Word)
  | sign (s : String)
  | redirect (stream : Option Nat) (s : String)
deriving DecidableEq, Repr

def isBlankChar (c : Char) : Bool := c == ' ' || c == '\t'

def isSignChar (c : Char) : Bool := c == ';' || c == '&' || c == '|' || c == '(' || c == ')'

def isNameStart (c : Char) : Bool := c.isAlpha || c == '_'

def isNameChar (c : Char) : Bool := c.isAlphanum || c == '_'

def upTo (mark : Char) (text : List Char) : Option (List Char × List Char) :=
  let found := text.takeWhile (· ≠ mark)
  match text.drop found.length with
  | [] => none
  | _ :: rest => some (found, rest)

def parameter? : List Char → Option (Parameter × List Char)
  | '@' :: rest => some (.arguments, rest)
  | '*' :: rest => some (.joined, rest)
  | '#' :: rest => some (.count, rest)
  | '$' :: rest => some (.process, rest)
  | '?' :: rest => some (.status, rest)
  | c :: rest =>
      if c.isDigit then some (.argument (c.toNat - 48), rest)
      else if isNameStart c then
        let name := (c :: rest).takeWhile isNameChar
        some (.variable (String.ofList name), (c :: rest).drop name.length)
      else none
  | [] => none

def pattern? : Nat → List Char → Option (List Marked × List Char)
  | 0, _ => none
  | fuel + 1, text =>
      match text with
      | [] => none
      | '\x7d' :: rest => some ([], rest)
      | '\\' :: c :: rest => (pattern? fuel rest).map fun (p, rest) => ((c, true) :: p, rest)
      | c :: rest =>
          if c = '\'' ∨ c = '"' then
            (upTo c rest).bind fun (quoted, rest) =>
              (pattern? fuel rest).map fun (p, rest) => (quoted.map (·, true) ++ p, rest)
          else (pattern? fuel rest).map fun (p, rest) => ((c, false) :: p, rest)

def braced? (quoted : Bool) (text : List Char) : Option (Piece × List Char) :=
  match parameter? text with
  | none => none
  | some (p, '\x7d' :: rest) => some (.value p none quoted, rest)
  | some (p, c :: rest) =>
      if c = '#' ∨ c = '%' then
        let longest := rest.head? == some c
        let rest := if longest then rest.drop 1 else rest
        (pattern? (rest.length + 1) rest).map fun (pattern, rest) =>
          (.value p (some ⟨c == '#', longest, pattern⟩) quoted, rest)
      else none
  | some (_, []) => none

def dollar? (quoted : Bool) : List Char → Option (Piece × List Char)
  | '\x7b' :: rest => braced? quoted rest
  | '(' :: _ => none
  | text =>
      match parameter? text with
      | some (p, rest) => some (.value p none quoted, rest)
      | none => some (.text ['$'] quoted, text)

def doubleQuoted? : Nat → List Char → Option (Word × List Char)
  | 0, _ => none
  | fuel + 1, text =>
      match text with
      | [] => none
      | '"' :: rest => some ([.text [] true], rest)
      | '\x60' :: _ => none
      | '$' :: rest =>
          (dollar? true rest).bind fun (piece, rest) =>
            (doubleQuoted? fuel rest).map fun (w, rest) => (piece :: w, rest)
      | '\\' :: c :: rest =>
          let chars :=
            if c = '$' ∨ c = '\x60' ∨ c = '"' ∨ c = '\\' then [c]
            else if c = '\n' then []
            else ['\\', c]
          (doubleQuoted? fuel rest).map fun (w, rest) => (.text chars true :: w, rest)
      | c :: rest => (doubleQuoted? fuel rest).map fun (w, rest) => (.text [c] true :: w, rest)

def endsWord (c : Char) : Bool :=
  isBlankChar c || isSignChar c || c == '\n' || c == '<' || c == '>'

def consPlain (c : Char) : Word → Word
  | .text chars false :: rest => .text (c :: chars) false :: rest
  | w => .text [c] false :: w

def word? : Nat → List Char → Option (Word × List Char)
  | 0, _ => none
  | fuel + 1, text =>
      match text with
      | [] => some ([], [])
      | '\'' :: rest =>
          (upTo '\'' rest).bind fun (chars, rest) =>
            (word? fuel rest).map fun (w, rest) => (.text chars true :: w, rest)
      | '"' :: rest =>
          (doubleQuoted? fuel rest).bind fun (quoted, rest) =>
            (word? fuel rest).map fun (w, rest) => (quoted ++ w, rest)
      | '\x60' :: _ => none
      | '$' :: rest =>
          (dollar? false rest).bind fun (piece, rest) =>
            (word? fuel rest).map fun (w, rest) => (piece :: w, rest)
      | '\\' :: '\n' :: rest => word? fuel rest
      | '\\' :: c :: rest => (word? fuel rest).map fun (w, rest) => (.text [c] true :: w, rest)
      | c :: rest =>
          if endsWord c then some ([], c :: rest)
          else (word? fuel rest).map fun (w, rest) => (consPlain c w, rest)

def sign? (text : List Char) : Option (Token × List Char) :=
  match text with
  | ';' :: ';' :: rest => some (.sign ";;", rest)
  | '&' :: '&' :: rest => some (.sign "&&", rest)
  | '|' :: '|' :: rest => some (.sign "||", rest)
  | '>' :: '>' :: rest => some (.redirect none ">>", rest)
  | '>' :: '&' :: rest => some (.redirect none ">&", rest)
  | '>' :: rest => some (.redirect none ">", rest)
  | '<' :: rest => some (.redirect none "<", rest)
  | c :: rest =>
      if isSignChar c ∨ c = '\n' then some (.sign (String.singleton c), rest) else none
  | [] => none

def signWithStream? (text : List Char) : Option (Token × List Char) :=
  match text with
  | c :: rest =>
      if c.isDigit then
        match sign? rest with
        | some (.redirect _ s, rest) => some (.redirect (some (c.toNat - 48)) s, rest)
        | _ => none
      else sign? text
  | [] => none

def tokens? : Nat → List Char → Option (List Token)
  | 0, _ => none
  | fuel + 1, text =>
      match text.dropWhile isBlankChar with
      | [] => some []
      | '#' :: rest => tokens? fuel (rest.dropWhile (· ≠ '\n'))
      | text =>
          match signWithStream? text with
          | some (token, rest) => (tokens? fuel rest).map (token :: ·)
          | none =>
              (word? (text.length + 1) text).bind fun (w, rest) =>
                (tokens? fuel rest).map (.word w :: ·)

def tokenize? (script : String) : Option (List Token) :=
  tokens? (script.length + 1) script.toList

end IndexKeeper.Shell
