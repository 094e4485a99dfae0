import IndexKeeper.Hash.Crc32
import IndexKeeper.Text.CodePage437
import IndexKeeper.Text.Utf8

set_option autoImplicit false

namespace IndexKeeper.Archive

def number (bytes : Bytes) : Nat := bytes.foldr (fun byte value => byte.toNat + 256 * value) 0

def numberAt (bytes : Bytes) (offset width : Nat) : Nat := number ((bytes.drop offset).take width)

def split? (n : Nat) (bytes : Bytes) : Option (Bytes × Bytes) :=
  if n ≤ bytes.length then some (bytes.take n, bytes.drop n) else none

def takeNumber? (width : Nat) (bytes : Bytes) : Option (Nat × Bytes) :=
  (split? width bytes).map fun (field, rest) => (number field, rest)

def localSignature : Bytes := [0x50, 0x4b, 0x03, 0x04]
def centralSignature : Bytes := [0x50, 0x4b, 0x01, 0x02]
def endSignature : Bytes := [0x50, 0x4b, 0x05, 0x06]
def largeEndSignature : Bytes := [0x50, 0x4b, 0x06, 0x06]
def largeLocatorSignature : Bytes := [0x50, 0x4b, 0x06, 0x07]

def occurrences (signature bytes : Bytes) (start stop : Nat) : List Nat :=
  let rec go (offset : Nat) : Bytes → List Nat
    | [] => []
    | b :: rest =>
        if signature.isPrefixOf (b :: rest) && decide (offset + signature.length ≤ stop) then
          offset :: go (offset + 1) rest
        else go (offset + 1) rest
  go start (bytes.drop start)

def thresholdOfEntries : Nat := 0xffff
def thresholdOfSize : Nat := 0xffffffff

structure Location where
  shift : Nat
  start : Nat
  count : Nat
  disk : Nat
  directoryDisk : Nat
deriving Repr

-- A large archive repeats its end record with wide fields; a locator in front of the end record says where.
def locateLarge? (bytes : Bytes) (endOffset : Nat) : Option (Option Location) :=
  if endOffset < 20 ∨ (bytes.drop (endOffset - 20)).take 4 ≠ largeLocatorSignature then none
  else
    let locator := endOffset - 20
    let relative := numberAt bytes (locator + 8) 8
    if locator ≤ relative ∨ 1 < numberAt bytes (locator + 16) 4 then some none
    else
      let valid (offset : Nat) : Option Location :=
        let size := numberAt bytes (offset + 4) 8
        let count := numberAt bytes (offset + 32) 8
        let directory := numberAt bytes (offset + 48) 8
        let directoryDisk := numberAt bytes (offset + 20) 4
        if bytes.length < offset + 56 ∨ size < 44 ∨ size + 12 ≠ locator - offset
            ∨ directoryDisk ≠ numberAt bytes (locator + 4) 4
            ∨ offset < count * 46 + directory
            ∨ count < numberAt bytes (offset + 24) 8
            ∨ numberAt bytes (offset + 12) 2 < numberAt bytes (offset + 14) 2 then none
        else some ⟨offset - relative, directory + (offset - relative), count,
          numberAt bytes (offset + 16) 4, directoryDisk⟩
      some ((occurrences largeEndSignature bytes relative locator).findSome? valid)

-- Where the end record at an offset puts the directory. A directory of no records needs no further evidence; any
-- other is found by its first record, which bytes in front of the archive can only move towards the end.
def locate? (bytes : Bytes) (endOffset : Nat) : Option Location :=
  let comment := numberAt bytes (endOffset + 20) 2
  if bytes.length < endOffset + 22 + comment then none
  else
    let total := numberAt bytes (endOffset + 10) 2
    let relative := numberAt bytes (endOffset + 16) 4
    let found (shift : Nat) : Location :=
      ⟨shift, relative + shift, numberAt bytes (endOffset + 8) 2,
        numberAt bytes (endOffset + 4) 2, numberAt bytes (endOffset + 6) 2⟩
    let large := if total = thresholdOfEntries ∨ relative = thresholdOfSize
      then locateLarge? bytes endOffset else none
    match large with
    | some location => location
    | none =>
        if total = 0 then some (found (endOffset - relative))
        else if endOffset ≤ relative then none
        else ((occurrences centralSignature bytes relative endOffset).head?).map fun offset =>
          found (offset - relative)

inductive Method where
  | stored
  | deflated
  | foreign
  | unsupported
deriving DecidableEq, Repr

def Method.ofNumber (n : Nat) : Method :=
  if n = 0 then .stored
  else if n = 8 then .deflated
  else if [9, 12, 14, 93, 95].contains n then .foreign
  else .unsupported

structure Record where
  name : String
  rawName : Bytes
  comment : String
  encrypted : Bool
  sealed : Bool
  method : Nat
  checksum : UInt32
  size : Nat
  packedSize : Nat
  offset : Nat
deriving Repr

inductive ExtraStep where
  | next (record : Record) (rest : Bytes)
  | truncated (record : Record)
  | invalid

-- The wide values stand in a fixed order, each only if the narrow one is saturated.
def wideSizes (r : Record) (length : Nat) (bytes : Bytes) : ExtraStep :=
  let all : Bool := decide (24 ≤ length)
  let wide (narrow : Nat) : Bool := all || narrow == thresholdOfSize
  let finish (r : Record) (used : Nat) (bytes : Bytes) : ExtraStep :=
    if length < used then .invalid
    else match split? (length - used) bytes with
      | none => .truncated r
      | some (_, rest) => .next r rest
  let third (r : Record) (used : Nat) (bytes : Bytes) : ExtraStep :=
    if wide r.offset then
      match takeNumber? 8 bytes with
      | none => .truncated r
      | some (v, rest) => finish { r with offset := v } (used + 8) rest
    else finish r used bytes
  let second (r : Record) (used : Nat) (bytes : Bytes) : ExtraStep :=
    if wide r.packedSize then
      match takeNumber? 8 bytes with
      | none => .truncated r
      | some (v, rest) => third { r with packedSize := v } (used + 8) rest
    else third r used bytes
  if wide r.size then
    match takeNumber? 8 bytes with
    | none => .truncated r
    | some (v, rest) => second { r with size := v } 8 rest
  else second r 0 bytes

def strongEncryption (r : Record) (length : Nat) (bytes : Bytes) : ExtraStep :=
  if length ≠ 7 then .invalid
  else match split? 7 bytes with
    | none => .truncated r
    | some (field, rest) =>
        let version := numberAt field 0 2
        let strength := numberAt field 4 1
        if numberAt field 2 2 ≠ 0x4541 ∨ version < 1 ∨ 2 < version ∨ strength < 1 ∨ 3 < strength
        then .invalid
        else .next { r with sealed := true, method := numberAt field 5 2 } rest

def extendedTimes (r : Record) (length : Nat) (bytes : Bytes) : ExtraStep :=
  match bytes with
  | [] => .truncated r
  | flags :: bytes =>
      let bit (i : Nat) : Bool := flags.toNat.testBit i
      let set := ((List.range 8).filter bit).length
      if length ≠ 5 ∧ length ≠ 1 + 4 * set then .invalid
      else
        let times := (if bit 0 || length == 5 then 1 else 0) +
          (if bit 1 && decide (5 < length) then 1 else 0) +
          (if bit 2 && decide (5 < length) then 1 else 0)
        match split? (4 * times) bytes with
        | none => .truncated r
        | some (_, rest) => .next r rest

def fileTimes (r : Record) (length : Nat) (bytes : Bytes) : ExtraStep :=
  if length ≠ 32 then .invalid
  else match split? 8 bytes with
    | none => .truncated r
    | some (head, rest) =>
        if numberAt head 4 2 ≠ 1 ∨ numberAt head 6 2 ≠ 24 then .invalid
        else match split? 24 rest with
          | none => .truncated r
          | some (_, rest) => .next r rest

def unicodeForm (r : Record) (plain : Bytes) (length : Nat) (bytes : Bytes)
    (use : Bytes → String → Record) : ExtraStep :=
  match split? 5 bytes with
  | none => .truncated r
  | some (head, rest) =>
      if length < 5 then .invalid
      else match split? (length - 5) rest with
        | none => .truncated r
        | some (content, rest) =>
            if numberAt head 1 4 ≠ (Crc32.checksum plain).toNat then .invalid
            else match content.toText? with
              | none => .invalid
              | some text => .next (use content text) rest

def extraField (r : Record) (bytes : Bytes) : ExtraStep :=
  match takeNumber? 2 bytes with
  | none => .next r []
  | some (kind, rest) =>
      match takeNumber? 2 rest with
      | none => .invalid
      | some (length, rest) =>
          match kind with
          | 0x0001 => wideSizes r length rest
          | 0x000a => fileTimes r length rest
          | 0x9901 => strongEncryption r length rest
          | 0x5455 => extendedTimes r length rest
          | 0x6375 => unicodeForm r (Bytes.ofText r.comment) length rest
              fun _ text => { r with comment := text }
          | 0x7075 => unicodeForm r r.rawName length rest
              fun raw text => { r with rawName := raw, name := text }
          | _ => match split? length rest with
              | none => .truncated r
              | some (_, rest) => .next r rest

def extraFields : Nat → Record → Bytes → Option Record
  | 0, r, _ => some r
  | fuel + 1, r, bytes =>
      if bytes.isEmpty then some r
      else match extraField r bytes with
        | .invalid => none
        | .truncated r => some r
        | .next r rest => extraFields fuel r rest

def record? (shift directoryStart : Nat) (bytes : Bytes) : Option (Record × Bytes) := do
  if bytes.length < 46 ∨ bytes.take 4 ≠ centralSignature then none
  let flags := numberAt bytes 8 2
  let decode (text : Bytes) : String :=
    if flags.testBit 11 then Utf8.decodeLossy text else CodePage437.decode text
  let (name, rest) ← split? (numberAt bytes 28 2) (bytes.drop 46)
  let (extra, rest) ← split? (numberAt bytes 30 2) rest
  let (comment, rest) ← split? (numberAt bytes 32 2) rest
  let plain : Record := {
    name := decode name
    rawName := name
    comment := decode comment
    encrypted := flags.testBit 0
    sealed := false
    method := numberAt bytes 10 2
    checksum := UInt32.ofNat (numberAt bytes 16 4)
    size := numberAt bytes 24 4
    packedSize := numberAt bytes 20 4
    offset := numberAt bytes 42 4 }
  let r ← extraFields extra.length plain extra
  if r.method = 99 ∧ r.sealed = false then none
  let r := { r with offset := r.offset + shift }
  if directoryStart ≤ r.offset then none
  return (r, rest)

def records? (shift directoryStart : Nat) : Nat → Bytes → Option (List Record)
  | 0, _ => some []
  | n + 1, bytes =>
      match record? shift directoryStart bytes with
      | none => none
      | some (r, rest) => (records? shift directoryStart n rest).map (r :: ·)

-- Of two records with one name the later counts, in the place of the earlier.
def place (entries : List Record) (r : Record) : List Record :=
  if entries.any (·.name == r.name) then entries.map fun e => if e.name == r.name then r else e
  else entries ++ [r]

def entriesAt? (bytes : Bytes) (endOffset : Nat) : Option (List Record) := do
  let location ← locate? bytes endOffset
  if location.disk ≠ location.directoryDisk then none
  let records ← records? location.shift location.start location.count (bytes.drop location.start)
  return records.foldl place []

-- The entries of an archive. The last end record that leads to a readable directory counts.
def entries? (bytes : Bytes) : Option (List Record) :=
  (occurrences endSignature bytes 0 bytes.length).reverse.findSome? (entriesAt? bytes)

end IndexKeeper.Archive
