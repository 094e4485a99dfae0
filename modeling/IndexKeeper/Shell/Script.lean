import IndexKeeper.Shell.Token

set_option autoImplicit false

namespace IndexKeeper.Shell

inductive Redirection where
  | output (stream : Nat) (append : Bool) (target : Word)
  | copy (stream source : Nat)
  | input (target : Word)
deriving DecidableEq, Repr

structure Simple where
  assignments : List (String × Word)
  words : List Word
  redirections : List Redirection
deriving DecidableEq, Repr

inductive Script where
  | nothing
  | simple (command : Simple)
  | inTurn (first second : Script)
  | ifWorks (first second : Script)
  | ifFails (first second : Script)
  | negated (body : Script)
  | forEach (name : String) (items : List Word) (body : Script)
  | whenMatches (subject : Word) (patterns : List Word) (body otherwise : Script)
  | branch (condition yes no : Script)
deriving DecidableEq, Repr

def plain? : Word → Option String
  | [.text chars false] => some (String.ofList chars)
  | _ => none

def closers : List String := ["done", "esac", "fi", "then", "else", "elif", "do", "\x7d"]

def closes : Token → Bool
  | .word w => match plain? w with
      | some s => closers.contains s
      | none => false
  | .sign s => s == ";;" || s == ")"
  | .redirect .. => false

def isSeparator (t : Token) : Bool := t == .sign ";" || t == .sign "\n"

def isLineEnd (t : Token) : Bool := t == .sign "\n"

def keyword? (name : String) : List Token → Option (List Token)
  | .word w :: rest => if plain? w = some name then some rest else none
  | _ => none

def assignment? : Word → Option (String × Word)
  | .text chars false :: rest =>
      let name := chars.takeWhile isNameChar
      match chars.drop name.length with
      | '=' :: value =>
          if name.head?.any isNameStart then
            some (String.ofList name, if value.isEmpty then rest else .text value false :: rest)
          else none
      | _ => none
  | _ => none

def redirection? (stream : Option Nat) (s : String) (target : Word) : Option Redirection :=
  match s with
  | ">" => some (.output (stream.getD 1) false target)
  | ">>" => some (.output (stream.getD 1) true target)
  | "<" => some (.input target)
  | ">&" => match plain? target with
      | some "1" => some (.copy (stream.getD 1) 1)
      | some "2" => some (.copy (stream.getD 1) 2)
      | _ => none
  | _ => none

def simple? : Simple → List Token → Option (Simple × List Token)
  | c, .redirect stream s :: .word target :: rest =>
      (redirection? stream s target).bind fun r =>
        simple? { c with redirections := c.redirections ++ [r] } rest
  | c, .word w :: rest =>
      match assignment? w with
      | some a =>
          if c.words.isEmpty then simple? { c with assignments := c.assignments ++ [a] } rest
          else simple? { c with words := c.words ++ [w] } rest
      | none => simple? { c with words := c.words ++ [w] } rest
  | _, .redirect .. :: _ => none
  | c, rest => if c = ⟨[], [], []⟩ then none else some (c, rest)

def patterns? : List Token → Option (List Word × List Token)
  | .word w :: .sign "|" :: rest => (patterns? rest).map fun (ps, rest) => (w :: ps, rest)
  | .word w :: .sign ")" :: rest => some ([w], rest)
  | _ => none

def forWords : List Token → List Word × List Token
  | .word w :: rest => ((w :: (forWords rest).1), (forWords rest).2)
  | rest => ([], rest)

mutual
def list? : Nat → List Token → Option (Script × List Token)
  | 0, _ => none
  | fuel + 1, tokens =>
      match tokens.dropWhile isSeparator with
      | [] => some (.nothing, [])
      | t :: rest =>
          if closes t then some (.nothing, t :: rest)
          else (chain? fuel (t :: rest)).bind fun (first, rest) =>
            match rest with
            | [] => some (first, [])
            | t :: after =>
                if closes t then some (first, rest)
                else if isSeparator t then
                  (list? fuel after).map fun (second, rest) => (.inTurn first second, rest)
                else none
def chain? : Nat → List Token → Option (Script × List Token)
  | 0, _ => none
  | fuel + 1, tokens => (command? fuel tokens).bind fun (first, rest) => joined? fuel first rest
def joined? : Nat → Script → List Token → Option (Script × List Token)
  | 0, _, _ => none
  | fuel + 1, first, .sign "&&" :: rest =>
      (command? fuel (rest.dropWhile isLineEnd)).bind fun (second, rest) =>
        joined? fuel (.ifWorks first second) rest
  | fuel + 1, first, .sign "||" :: rest =>
      (command? fuel (rest.dropWhile isLineEnd)).bind fun (second, rest) =>
        joined? fuel (.ifFails first second) rest
  | _ + 1, first, rest => some (first, rest)
def command? : Nat → List Token → Option (Script × List Token)
  | 0, _ => none
  | fuel + 1, tokens =>
      match keyword? "!" tokens with
      | some rest => (command? fuel rest).map fun (body, rest) => (.negated body, rest)
      | none => match keyword? "\x7b" tokens with
          | some rest => (list? fuel rest).bind fun (body, rest) =>
              (keyword? "\x7d" rest).map fun rest => (body, rest)
          | none => match keyword? "for" tokens with
              | some (.word name :: rest) => for? fuel name rest
              | some _ => none
              | none => match keyword? "case" tokens with
                  | some (.word subject :: rest) =>
                      (keyword? "in" (rest.dropWhile isLineEnd)).bind (cases? fuel subject)
                  | some _ => none
                  | none => match keyword? "if" tokens with
                      | some rest => if? fuel rest
                      | none => (simple? ⟨[], [], []⟩ tokens).map fun (c, rest) =>
                          (.simple c, rest)
def for? : Nat → Word → List Token → Option (Script × List Token)
  | 0, _, _ => none
  | fuel + 1, name, tokens =>
      let (items, rest) := match keyword? "in" tokens with
        | some rest => forWords rest
        | none => ([[.value .arguments none true]], tokens)
      match plain? name, keyword? "do" (rest.dropWhile isSeparator) with
      | some name, some rest => (list? fuel rest).bind fun (body, rest) =>
          (keyword? "done" rest).map fun rest => (.forEach name items body, rest)
      | _, _ => none
def cases? : Nat → Word → List Token → Option (Script × List Token)
  | 0, _, _ => none
  | fuel + 1, subject, tokens =>
      let tokens := tokens.dropWhile isLineEnd
      match keyword? "esac" tokens with
      | some rest => some (.nothing, rest)
      | none =>
          let tokens := if tokens.head? == some (.sign "(") then tokens.drop 1 else tokens
          (patterns? tokens).bind fun (patterns, rest) =>
            (list? fuel rest).bind fun (body, rest) =>
              let rest := if rest.head? == some (.sign ";;") then rest.drop 1 else rest
              (cases? fuel subject rest).map fun (otherwise, rest) =>
                (.whenMatches subject patterns body otherwise, rest)
def if? : Nat → List Token → Option (Script × List Token)
  | 0, _ => none
  | fuel + 1, tokens =>
      (list? fuel tokens).bind fun (condition, rest) =>
        (keyword? "then" rest).bind fun rest =>
          (list? fuel rest).bind fun (yes, rest) =>
            match keyword? "fi" rest with
            | some rest => some (.branch condition yes .nothing, rest)
            | none => match keyword? "else" rest with
                | some rest => (list? fuel rest).bind fun (no, rest) =>
                    (keyword? "fi" rest).map fun rest => (.branch condition yes no, rest)
                | none => match keyword? "elif" rest with
                    | some rest => (if? fuel rest).map fun (no, rest) =>
                        (.branch condition yes no, rest)
                    | none => none
end

namespace Script

def parse? (text : String) : Option Script :=
  match tokenize? text with
  | none => none
  | some tokens => match list? (8 * tokens.length + 8) tokens with
      | some (script, []) => some script
      | _ => none

end Script
end IndexKeeper.Shell
