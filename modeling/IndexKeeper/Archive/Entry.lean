import IndexKeeper.Archive.Deflate
import IndexKeeper.Archive.Directory

set_option autoImplicit false

/-!
Taking one file out of a zip archive by its name. Names are compared with forward slashes and
without a leading `./` or `/`.

Only stored and deflated data is unpacked. An entry of method 9, 12, 14, 93 or 95 (Deflate64, BZIP2,
LZMA, Zstandard, XZ) is opened, so that the search goes on past it, but to take it out gives
`damagedData`, where the `zip` crate has decoders for these methods.
-/

namespace IndexKeeper.Archive

inductive ArchiveError where
  | noDirectory
  | encrypted
  | unsupportedMethod
  | noLocalHeader
  | damagedData
  | wrongChecksum
  | tooLarge (name : String) (limit : Nat)
deriving DecidableEq, Repr

def ArchiveError.message? : ArchiveError → Option String
  | tooLarge name limit =>
      some ("zip entry " ++ name ++ " exceeds size limit (" ++ toString limit ++ " bytes)")
  | _ => none

def entryLimit : Nat := 4 * 1024 * 1024 * 1024

def trimStart (front : List Char) (text : List Char) : List Char :=
  if front.isEmpty then text else go text.length text
where
  go : Nat → List Char → List Char
    | 0, text => text
    | fuel + 1, text => if front.isPrefixOf text then go fuel (text.drop front.length) else text

def normalizeChars (name : List Char) : List Char :=
  trimStart ['/'] (trimStart ['.', '/'] (name.map fun c => if c = '\\' then '/' else c))

def normalize (name : String) : String := String.ofList (normalizeChars name.toList)

def isDirectoryName (name : String) : Bool :=
  match name.toList.getLast? with
  | some c => c == '/' || c == '\\'
  | none => false

def dataStart? (bytes : Bytes) (r : Record) : Option Nat :=
  if bytes.length < r.offset + 30 ∨ (bytes.drop r.offset).take 4 ≠ localSignature then none
  else some (r.offset + 30 + numberAt bytes (r.offset + 26) 2 + numberAt bytes (r.offset + 28) 2)

def openEntry (bytes : Bytes) (r : Record) : Except ArchiveError Bytes :=
  if r.encrypted then .error .encrypted
  else match dataStart? bytes r with
    | none => .error .noLocalHeader
    | some start =>
        if Method.ofNumber r.method = .unsupported then .error .unsupportedMethod
        else if r.sealed then .error .encrypted
        else .ok ((bytes.drop start).take r.packedSize)

-- The data of an entry. `name` is what it was asked for by. Data that is too large is refused before its checksum
-- is looked at.
def unpack (name : String) (limit : Nat) (r : Record) (packed : Bytes) : Except ArchiveError Bytes :=
  let data := match Method.ofNumber r.method with
    | .stored => some packed
    | .deflated => Deflate.inflate? packed
    | _ => none
  match data with
  | none => .error .damagedData
  | some data =>
      if limit < data.length then .error (.tooLarge name limit)
      else if Crc32.checksum data = r.checksum then .ok data
      else .error .wrongChecksum

def extractFrom (bytes : Bytes) (name : String) (limit : Nat) :
    List Record → Except ArchiveError (Option Bytes)
  | [] => .ok none
  | r :: rest =>
      match openEntry bytes r with
      | .error e => .error e
      | .ok packed =>
          if isDirectoryName r.name || normalize r.name != normalize name then
            extractFrom bytes name limit rest
          else (unpack name limit r packed).map some

def extractBounded (bytes : Bytes) (name : String) (limit : Nat) : Except ArchiveError (Option Bytes) :=
  match entries? bytes with
  | none => .error .noDirectory
  | some entries => extractFrom bytes name limit entries

def extract (bytes : Bytes) (name : String) : Except ArchiveError (Option Bytes) :=
  extractBounded bytes name entryLimit

end IndexKeeper.Archive
