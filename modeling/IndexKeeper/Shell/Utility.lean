import IndexKeeper.Files.Tree
import IndexKeeper.Generator

set_option autoImplicit false

namespace IndexKeeper.Shell

structure Finished where
  files : FileTree
  out : Bytes := []
  err : Bytes := []
  status : Nat := 0

def reason : FileError → String
  | .notFound => "No such file or directory"
  | .notDirectory => "Not a directory"
  | .isDirectory => "Is a directory"
  | .exists => "File exists"
  | .nameTooLong => "File name too long"
  | .invalidPath => "Invalid argument"
  | .refused => "Permission denied"

namespace Utility

def octal? (c : Char) : Option Nat := if '0' ≤ c ∧ c ≤ '7' then some (c.toNat - 48) else none

def escapeValue? (c : Char) : Option Nat :=
  [('a', 7), ('b', 8), ('f', 12), ('n', 10), ('r', 13), ('t', 9), ('v', 11), ('\\', 92)].lookup c

def octalByte (text : List Char) : UInt8 × List Char :=
  let digits := (text.take 3).takeWhile fun c => (octal? c).isSome
  (UInt8.ofNat (digits.foldl (fun n c => 8 * n + (octal? c).getD 0) 0), text.drop digits.length)

-- The bytes of a text in which backslashes escape. `zero` says that octal escapes start with a zero. None stands
-- for the escape that ends all output.
def unescape (zero : Bool) : Nat → List Char → List (Option UInt8)
  | 0, _ => []
  | fuel + 1, text =>
      match text with
      | [] => []
      | '\\' :: 'c' :: rest => none :: unescape zero fuel rest
      | '\\' :: c :: rest =>
          match escapeValue? c with
          | some n => some (UInt8.ofNat n) :: unescape zero fuel rest
          | none =>
              if (octal? c).isSome ∧ (!zero ∨ c = '0') then
                let (byte, rest) := octalByte (if zero then rest else c :: rest)
                some byte :: unescape zero fuel rest
              else (Bytes.ofText (String.ofList ['\\', c])).map some ++ unescape zero fuel rest
      | c :: rest => (Bytes.ofText (String.singleton c)).map some ++ unescape zero fuel rest

def unescaped (zero : Bool) (s : String) : Bytes :=
  ((unescape zero (s.length + 1) s.toList).takeWhile Option.isSome).filterMap id

def echo (t : FileTree) (args : List String) : Finished :=
  let newline := args.head? ≠ some "-n"
  let line := " ".intercalate (if newline then args else args.drop 1)
  { files := t, out := unescaped true line ++ if newline then [10] else [] }

def format : Nat → List Char → List String → Bytes × List String
  | 0, _, args => ([], args)
  | fuel + 1, text, args =>
      match text with
      | [] => ([], args)
      | '%' :: '%' :: rest =>
          let (bytes, args) := format fuel rest args
          (0x25 :: bytes, args)
      | '%' :: c :: rest =>
          let arg := args.headD ""
          let shown :=
            if c = 'b' then unescaped true arg
            else if c = 'd' ∨ c = 'i' then Bytes.ofText (if arg = "" then "0" else arg)
            else if c = 'c' then (Bytes.ofText arg).take 1
            else Bytes.ofText arg
          let (bytes, args) := format fuel rest (args.drop 1)
          (shown ++ bytes, args)
      | '\\' :: rest =>
          let part := '\\' :: rest.take (if (octal? (rest.headD ' ')).isSome then
            ((rest.take 3).takeWhile fun c => (octal? c).isSome).length else 1)
          let (bytes, args) := format fuel (rest.drop (part.length - 1)) args
          (unescaped false (String.ofList part) ++ bytes, args)
      | c :: rest =>
          let (bytes, args) := format fuel rest args
          (Bytes.ofText (String.singleton c) ++ bytes, args)

def formatAll (text : List Char) : Nat → List String → Bytes
  | 0, _ => []
  | fuel + 1, args =>
      let (bytes, rest) := format (text.length + 1) text args
      if rest.isEmpty ∨ rest.length = args.length then bytes else bytes ++ formatAll text fuel rest

def printf (t : FileTree) : List String → Finished
  | [] => { files := t, err := Bytes.ofText "printf: usage: printf format [arg ...]\n", status := 2 }
  | text :: args => { files := t, out := formatAll text.toList (args.length + 1) args }

def complaint (program path : String) (e : FileError) : Bytes :=
  Bytes.ofText (program ++ ": " ++ path ++ ": " ++ reason e ++ "\n")

def cat (t : FileTree) (input : Bytes) (args : List String) : Finished :=
  (if args.isEmpty then ["-"] else args).foldl (fun done path =>
    if path = "-" then { done with out := done.out ++ input }
    else match t.read path with
      | .ok bytes => { done with out := done.out ++ bytes }
      | .error e => { done with err := done.err ++ complaint "cat" path e, status := 1 })
    { files := t }

def mkdir (t : FileTree) (args : List String) : Finished :=
  let parents := args.contains "-p"
  (args.filter (· ≠ "-p")).foldl (fun done path =>
    let (result, files) :=
      if parents then done.files.makeDirectories path
      else match done.files.makeDirectory path with
        | .ok files => (.ok (), files)
        | .error e => (.error e, done.files)
    match result with
    | .ok () => { done with files }
    | .error e => { done with
        files
        err := done.err ++ Bytes.ofText
          ("mkdir: cannot create directory '" ++ path ++ "': " ++ reason e ++ "\n")
        status := 1 })
    { files := t }

def touch (t : FileTree) (args : List String) : Finished :=
  args.foldl (fun done path =>
    match done.files.append path [] with
    | .ok files => { done with files }
    | .error e => { done with
        err := done.err ++ Bytes.ofText
          ("touch: cannot touch '" ++ path ++ "': " ++ reason e ++ "\n")
        status := 1 })
    { files := t }

def remove (t : FileTree) (args : List String) : Finished :=
  let whole := args.any fun a => ["-r", "-rf", "-fr", "-R"].contains a
  let quiet := args.any fun a => ["-f", "-rf", "-fr"].contains a
  (args.filter fun a => a.toList.head? ≠ some '-').foldl (fun done path =>
    let result :=
      if whole ∧ done.files.isDirectory path then .ok (done.files.removeDirectory path).2
      else done.files.removeFile path
    match result with
    | .ok files => { done with files }
    | .error e =>
        if quiet ∧ e = .notFound then done
        else { done with
          err := done.err ++ Bytes.ofText
            ("rm: cannot remove '" ++ path ++ "': " ++ reason e ++ "\n")
          status := 1 })
    { files := t }

def copyFile (t : FileTree) (source target : String) : Finished :=
  let target :=
    if t.isDirectory target then Path.join target ((Path.segments source).getLastD "") else target
  match t.read source with
  | .error e => { files := t, err := complaint "cp" source e, status := 1 }
  | .ok bytes => match t.write target bytes with
      | .error e => { files := t, err := complaint "cp" target e, status := 1 }
      | .ok files => { files }

def numbers (first step last : Int) : List Int :=
  if step = 0 then []
  else
    let count := (last - first).fdiv step + 1
    (List.range count.toNat).map fun n : Nat => first + step * n

def seq (t : FileTree) (args : List String) : Finished :=
  let listed (l : List Int) : Finished :=
    { files := t, out := Bytes.ofText (String.join (l.map fun n => toString n ++ "\n")) }
  match args.mapM String.toInt? with
  | some [last] => listed (numbers 1 1 last)
  | some [first, last] => listed (numbers first 1 last)
  | some [first, step, last] => listed (numbers first step last)
  | _ => { files := t, err := Bytes.ofText "seq: invalid argument\n", status := 1 }

def holds? (t : FileTree) : List String → Option Bool
  | [] => some false
  | [s] => some (s ≠ "")
  | ["!", s] => some (s = "")
  | ["-n", s] => some (s ≠ "")
  | ["-z", s] => some (s = "")
  | ["-e", path] => some (t.pathExists path)
  | ["-d", path] => some (t.isDirectory path)
  | ["-f", path] => some (t.pathExists path && !t.isDirectory path)
  | ["-s", path] => some (match t.read path with | .ok bytes => !bytes.isEmpty | .error _ => false)
  | [a, "=", b] => some (a = b)
  | [a, "!=", b] => some (a ≠ b)
  | [a, compare, b] =>
      match a.toInt?, b.toInt? with
      | some a, some b => match compare with
          | "-eq" => some (a = b)
          | "-ne" => some (a ≠ b)
          | "-lt" => some (a < b)
          | "-le" => some (a ≤ b)
          | "-gt" => some (b < a)
          | "-ge" => some (b ≤ a)
          | _ => none
      | _, _ => none
  | _ => none

def test (t : FileTree) (args : List String) : Finished :=
  match holds? t args with
  | some true => { files := t }
  | some false => { files := t, status := 1 }
  | none => { files := t, err := Bytes.ofText "test: unexpected operator\n", status := 2 }

end Utility

def runUtility? (name : String) (args : List String) (input : Bytes) (t : FileTree) :
    Option Finished :=
  match name with
  | "true" => some { files := t }
  | "false" => some { files := t, status := 1 }
  | "echo" => some (Utility.echo t args)
  | "printf" => some (Utility.printf t args)
  | "cat" => some (Utility.cat t input args)
  | "mkdir" => some (Utility.mkdir t args)
  | "touch" => some (Utility.touch t args)
  | "rm" => some (Utility.remove t args)
  | "cp" => match args with
      | [source, target] => some (Utility.copyFile t source target)
      | _ => some { files := t, err := Bytes.ofText "cp: missing file operand\n", status := 1 }
  | "seq" => some (Utility.seq t args)
  | "pwd" => some { files := t, out := Bytes.ofText (t.workingPath ++ "\n") }
  | "sleep" => some { files := t }
  | "test" => some (Utility.test t args)
  | "[" =>
      if args.getLast? = some "]" then some (Utility.test t args.dropLast)
      else some { files := t, err := Bytes.ofText "[: missing ]\n", status := 2 }
  | _ => none

end IndexKeeper.Shell
