import IndexKeeper.Bytes
import IndexKeeper.Json.Value

set_option autoImplicit false

namespace IndexKeeper.Json

def escaped (c : Char) : List Char :=
  if c = '"' then ['\\', '"']
  else if c = '\\' then ['\\', '\\']
  else if c = '\n' then ['\\', 'n']
  else if c = '\r' then ['\\', 'r']
  else if c = '\t' then ['\\', 't']
  else if c = Char.ofNat 8 then ['\\', 'b']
  else if c = Char.ofNat 12 then ['\\', 'f']
  else if c.toNat < 0x20 then
    ['\\', 'u', '0', '0', hexDigit (c.toNat / 16), hexDigit (c.toNat % 16)]
  else [c]

def quotedChars (text : List Char) : List Char := '"' :: (text.flatMap escaped ++ ['"'])

def quoted (text : String) : String := String.ofList (quotedChars text.toList)

mutual
def compact : Value → String
  | .null => "null"
  | .boolean b => if b then "true" else "false"
  | .integer i => toString i
  | .decimal written => written
  | .text s => quoted s
  | .brokenText => "null"
  | .array items => "[" ++ compactItems items ++ "]"
  | .object fields => "\x7b" ++ compactFields fields ++ "\x7d"
def compactItems : List Value → String
  | [] => ""
  | [v] => compact v
  | v :: rest => compact v ++ "," ++ compactItems rest
def compactFields : List (Option String × Value) → String
  | [] => ""
  | [(name, v)] => quoted (name.getD "") ++ ":" ++ compact v
  | (name, v) :: rest => quoted (name.getD "") ++ ":" ++ compact v ++ "," ++ compactFields rest
end

def textField (field : String × String) : List Char :=
  [' ', ' '] ++ quotedChars field.1.toList ++ [':', ' '] ++ quotedChars field.2.toList

def textFields : List (String × String) → List Char
  | [] => []
  | [field] => textField field
  | field :: rest => textField field ++ [',', '\n'] ++ textFields rest

def indentedTexts (fields : List (String × String)) : String :=
  String.ofList (match fields with
    | [] => ['\x7b', '\x7d']
    | _ => ['\x7b', '\n'] ++ textFields fields ++ ['\n', '\x7d'])

end IndexKeeper.Json
