import IndexKeeper.NameMap
import IndexKeeper.Shell.Token

set_option autoImplicit false

namespace IndexKeeper.Shell

structure Context where
  name : String
  arguments : List String
  bindings : NameMap String
  status : Nat
deriving DecidableEq, Repr

def processNumber : String := "4242"

def Context.value (c : Context) : Parameter → String
  | .arguments => " ".intercalate c.arguments
  | .joined => " ".intercalate c.arguments
  | .count => toString c.arguments.length
  | .process => processNumber
  | .status => toString c.status
  | .argument n => (c.name :: c.arguments).getD n ""
  | .variable name => (c.bindings.get? name).getD ""

def suffixes {α : Type} : List α → List (List α)
  | [] => [[]]
  | a :: rest => (a :: rest) :: suffixes rest

def fits : List Marked → List Char → Bool
  | [], text => text.isEmpty
  | (c, quoted) :: pattern, text =>
      if c = '*' ∧ ¬quoted then (suffixes text).any (fits pattern)
      else match text with
        | [] => false
        | first :: rest => ((c == '?' && !quoted) || first == c) && fits pattern rest

def Cut.apply (cut : Cut) (text : List Char) : List Char :=
  let lengths := List.range (text.length + 1)
  let lengths := if cut.longest then lengths.reverse else lengths
  if cut.atFront then
    match lengths.find? fun n => fits cut.pattern (text.take n) with
    | some n => text.drop n
    | none => text
  else
    match lengths.find? fun n => fits cut.pattern (text.drop (text.length - n)) with
    | some n => text.take (text.length - n)
    | none => text

def cutValue (cut : Option Cut) (value : String) : List Char :=
  match cut with
  | none => value.toList
  | some cut => cut.apply value.toList

structure Fields where
  complete : List (List Marked)
  growing : Option (List Marked)

namespace Fields

def add (f : Fields) (chars : List Marked) : Fields :=
  { f with growing := some (f.growing.getD [] ++ chars) }

def close (f : Fields) : Fields := ⟨f.complete ++ f.growing.toList, none⟩

def addSplit (f : Fields) (chars : List Char) : Fields :=
  chars.foldl (fun f c =>
    if c = ' ' ∨ c = '\t' ∨ c = '\n' then f.close else f.add [(c, false)]) f

def addEach (f : Fields) : List String → Fields
  | [] => f
  | [s] => f.add (s.toList.map (·, true))
  | s :: rest => (f.add (s.toList.map (·, true))).close.addEach rest

end Fields

def expandPiece (c : Context) (f : Fields) : Piece → Fields
  | .text chars quoted => f.add (chars.map (·, quoted))
  | .value .arguments none true => f.addEach c.arguments
  | .value p cut true => f.add ((cutValue cut (c.value p)).map (·, true))
  | .value p cut false => f.addSplit (cutValue cut (c.value p))

def expand (c : Context) (w : Word) : List String :=
  ((w.foldl (expandPiece c) ⟨[], none⟩).close.complete).map fun field =>
    String.ofList (field.map Prod.fst)

def expandWhole (c : Context) (w : Word) : List Marked :=
  w.flatMap fun
    | .text chars quoted => chars.map (·, quoted)
    | .value p cut quoted => (cutValue cut (c.value p)).map (·, quoted)

def expandText (c : Context) (w : Word) : String :=
  String.ofList ((expandWhole c w).map Prod.fst)

end IndexKeeper.Shell
