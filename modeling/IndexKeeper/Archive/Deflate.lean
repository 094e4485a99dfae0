import IndexKeeper.Bytes

set_option autoImplicit false

namespace IndexKeeper.Deflate

abbrev Bits := List Bool

def bitsOf (bytes : Bytes) : Bits :=
  bytes.flatMap fun b => (List.range 8).map b.toNat.testBit

def takeNumber? : Nat → Bits → Option (Nat × Bits)
  | 0, bits => some (0, bits)
  | _ + 1, [] => none
  | n + 1, bit :: bits =>
      (takeNumber? n bits).map fun (value, rest) => (bit.toNat + 2 * value, rest)

structure Code where
  counts : List Nat
  symbols : Array Nat

namespace Code

def maxLength : Nat := 15

def ofLengths? (lengths : List Nat) : Option Code :=
  let sizes := (List.range maxLength).map (· + 1)
  let counts := sizes.map fun size => lengths.count size
  let space := (List.zipWith (fun size n => n * Nat.pow 2 (maxLength - size)) sizes counts).foldl (· + ·) 0
  let used := counts.foldl (· + ·) 0
  if space = Nat.pow 2 maxLength ∨ used ≤ 1 then
    let symbols := sizes.flatMap fun size =>
      (lengths.zipIdx.filter fun (length, _) => length = size).map fun (_, symbol) => symbol
    some ⟨counts, symbols.toArray⟩
  else none

-- Follows the code bit by bit. `first` is the first code of the current length and `index` the place of its
-- symbol.
def walk (symbols : Array Nat) : List Nat → Nat → Nat → Nat → Bits → Option (Nat × Bits)
  | [], _, _, _, _ => none
  | _ :: _, _, _, _, [] => none
  | count :: counts, code, first, index, bit :: bits =>
      let code := code + bit.toNat
      if code < first + count then (symbols[index + (code - first)]?).map fun s => (s, bits)
      else walk symbols counts (2 * code) (2 * (first + count)) (index + count) bits

def decode? (c : Code) (bits : Bits) : Option (Nat × Bits) := walk c.symbols c.counts 0 0 0 bits

end Code

def lengthTable : List (Nat × Nat) := [
  (3, 0), (4, 0), (5, 0), (6, 0), (7, 0), (8, 0), (9, 0), (10, 0), (11, 1), (13, 1), (15, 1),
  (17, 1), (19, 2), (23, 2), (27, 2), (31, 2), (35, 3), (43, 3), (51, 3), (59, 3), (67, 4), (83, 4),
  (99, 4), (115, 4), (131, 5), (163, 5), (195, 5), (227, 5), (258, 0)]

def distanceTable : List (Nat × Nat) := [
  (1, 0), (2, 0), (3, 0), (4, 0), (5, 1), (7, 1), (9, 2), (13, 2), (17, 3), (25, 3), (33, 4),
  (49, 4), (65, 5), (97, 5), (129, 6), (193, 6), (257, 7), (385, 7), (513, 8), (769, 8), (1025, 9),
  (1537, 9), (2049, 10), (3073, 10), (4097, 11), (6145, 11), (8193, 12), (12289, 12), (16385, 13),
  (24577, 13)]

def takeFrom? (table : List (Nat × Nat)) (symbol : Nat) (bits : Bits) : Option (Nat × Bits) :=
  match table[symbol]? with
  | none => none
  | some (least, extra) =>
      (takeNumber? extra bits).map fun (more, rest) => (least + more, rest)

def copyBack : Nat → Nat → Array UInt8 → Array UInt8
  | 0, _, out => out
  | length + 1, distance, out =>
      copyBack length distance (out.push (out.getD (out.size - distance) 0))

-- The symbols of one block. Each takes at least one bit, so `fuel` bits suffice.
def symbols (literals distances : Code) :
    Nat → Bits → Array UInt8 → Option (Bits × Array UInt8)
  | 0, _, _ => none
  | fuel + 1, bits, out =>
      match literals.decode? bits with
      | none => none
      | some (symbol, bits) =>
          if symbol < 256 then symbols literals distances fuel bits (out.push (UInt8.ofNat symbol))
          else if symbol = 256 then some (bits, out)
          else match takeFrom? lengthTable (symbol - 257) bits with
            | none => none
            | some (length, bits) => match distances.decode? bits with
              | none => none
              | some (symbol, bits) => match takeFrom? distanceTable symbol bits with
                | none => none
                | some (distance, bits) =>
                    if out.size < distance then none
                    else symbols literals distances fuel bits (copyBack length distance out)

def storedBytes : Nat → Bits → Array UInt8 → Option (Bits × Array UInt8)
  | 0, bits, out => some (bits, out)
  | n + 1, bits, out =>
      match takeNumber? 8 bits with
      | none => none
      | some (byte, bits) => storedBytes n bits (out.push (UInt8.ofNat byte))

def stored (bits : Bits) (out : Array UInt8) : Option (Bits × Array UInt8) :=
  match takeNumber? 16 (bits.drop (bits.length % 8)) with
  | none => none
  | some (length, bits) => match takeNumber? 16 bits with
    | none => none
    | some (complement, bits) =>
        if length + complement = 0xffff then storedBytes length bits out else none

def fixedLiterals : List Nat :=
  List.replicate 144 8 ++ List.replicate 112 9 ++ List.replicate 24 7 ++ List.replicate 8 8

def fixedDistances : List Nat := List.replicate 32 5

def lengthOrder : List Nat := [16, 17, 18, 0, 8, 7, 9, 6, 10, 5, 11, 4, 12, 3, 13, 2, 14, 1, 15]

def takeNumbers? (width : Nat) : Nat → Bits → Option (List Nat × Bits)
  | 0, bits => some ([], bits)
  | n + 1, bits =>
      match takeNumber? width bits with
      | none => none
      | some (value, bits) =>
          (takeNumbers? width n bits).map fun (values, rest) => (value :: values, rest)

-- Reads code lengths, last one first, until there are `total`.
def codeLengths (c : Code) (total : Nat) : Nat → Bits → List Nat → Option (List Nat × Bits)
  | 0, _, _ => none
  | fuel + 1, bits, lengths =>
      if total < lengths.length then none
      else if lengths.length = total then some (lengths, bits)
      else match c.decode? bits with
        | none => none
        | some (symbol, bits) =>
            let repeated (value least width : Nat) : Option (List Nat × Bits) :=
              match takeNumber? width bits with
              | none => none
              | some (more, bits) =>
                  codeLengths c total fuel bits (List.replicate (least + more) value ++ lengths)
            if symbol < 16 then codeLengths c total fuel bits (symbol :: lengths)
            else if symbol = 16 then
              match lengths with
              | [] => none
              | last :: _ => repeated last 3 2
            else if symbol = 17 then repeated 0 3 3
            else repeated 0 11 7

def dynamicCodes (bits : Bits) : Option (Code × Code × Bits) := do
  let (literals, bits) ← takeNumber? 5 bits
  let (distances, bits) ← takeNumber? 5 bits
  let (lengths, bits) ← takeNumber? 4 bits
  let (sizes, bits) ← takeNumbers? 3 (lengths + 4) bits
  let sized := lengthOrder.zip sizes
  let code ← Code.ofLengths? ((List.range 19).map fun symbol => (sized.lookup symbol).getD 0)
  let total := literals + 257 + (distances + 1)
  let (lengths, bits) ← codeLengths code total (total + 1) bits []
  let lengths := lengths.reverse
  let literalCode ← Code.ofLengths? (lengths.take (literals + 257))
  let distanceCode ← Code.ofLengths? (lengths.drop (literals + 257))
  return (literalCode, distanceCode, bits)

def block (kind : Nat) (bits : Bits) (out : Array UInt8) : Option (Bits × Array UInt8) := do
  if kind = 0 then stored bits out
  else if kind = 1 then
    symbols (← Code.ofLengths? fixedLiterals) (← Code.ofLengths? fixedDistances)
      (bits.length + 1) bits out
  else if kind = 2 then
    let (literals, distances, bits) ← dynamicCodes bits
    symbols literals distances (bits.length + 1) bits out
  else none

-- Every block takes three bits for its header, so there are fewer blocks than bits.
def blocks : Nat → Bits → Array UInt8 → Option (Array UInt8)
  | 0, _, _ => none
  | fuel + 1, bits, out => do
      let (last, bits) ← takeNumber? 1 bits
      let (kind, bits) ← takeNumber? 2 bits
      let (bits, out) ← block kind bits out
      if last = 1 then return out else blocks fuel bits out

def inflate? (bytes : Bytes) : Option Bytes :=
  let bits := bitsOf bytes
  (blocks bits.length bits #[]).map Array.toList

end IndexKeeper.Deflate
