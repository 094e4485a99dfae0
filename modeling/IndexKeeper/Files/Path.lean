set_option autoImplicit false

namespace IndexKeeper.Path

def isAbsolute (path : String) : Bool := path.toList.head? == some '/'

-- An absolute tail replaces the base; an empty tail leaves a slash at the end.
def join (base tail : String) : String :=
  if isAbsolute tail then tail
  else match base.toList.getLast? with
    | none => tail
    | some c => if c = '/' then base ++ tail else base ++ "/" ++ tail

def splitChars : List Char → List (List Char)
  | [] => [[]]
  | c :: rest =>
      match splitChars rest with
      | [] => [[c]]
      | part :: parts => if c = '/' then [] :: part :: parts else (c :: part) :: parts

def segments (path : String) : List String :=
  ((splitChars path.toList).filter fun part => !part.isEmpty).map String.ofList

def endsWithSlash (path : String) : Bool := path.toList.getLast? == some '/'

def ofSegments (absolute : Bool) (names : List String) : String :=
  (if absolute then "/" else "") ++ "/".intercalate names

def ancestors (path : String) : List String :=
  let names := segments path
  let kept := names.take 1 ++ (names.drop 1).filter (· ≠ ".")
  let counted := if isAbsolute path then names.filter (· ≠ ".") else kept
  (List.range counted.length).reverse.map fun n => ofSegments (isAbsolute path) (counted.take n)

end IndexKeeper.Path
