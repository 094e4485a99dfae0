import IndexKeeper.Archive.Entry

set_option autoImplicit false

namespace IndexKeeper.Archive

structure Member where
  name : String
  data : Bytes
  encrypted : Bool := false
  method : Nat := 0
deriving DecidableEq, Repr

def numberBytes : Nat → Nat → Bytes
  | 0, _ => []
  | width + 1, value => UInt8.ofNat value :: numberBytes width (value / 256)

theorem number_bytes_length (width value : Nat) : (numberBytes width value).length = width := by
  induction width generalizing value with
  | zero => rfl
  | succ width ih => simp [numberBytes, ih]

theorem number_number_bytes (width value : Nat) (fits : value < Nat.pow 256 width) :
    number (numberBytes width value) = value := by
  induction width generalizing value with
  | zero =>
      have nothing : value = 0 := Nat.lt_one_iff.mp fits
      simp [numberBytes, number, nothing]
  | succ width ih =>
      have small : value / 256 < Nat.pow 256 width := by
        rw [Nat.pow] at fits
        exact Nat.div_lt_of_lt_mul (by rwa [Nat.mul_comm])
      have rest := ih (value / 256) small
      simp only [number] at rest
      simp only [numberBytes, number, List.foldr_cons, UInt8.toNat_ofNat', rest]
      omega

def fields (values : List (Nat × Nat)) : Bytes :=
  values.flatMap fun (width, value) => numberBytes width value

def wideField (values : List Nat) : Bytes :=
  let wide := values.filter fun value => decide (thresholdOfSize ≤ value)
  if wide.isEmpty then []
  else fields ((2, 1) :: (2, 8 * wide.length) :: wide.map fun value => (8, value))

def versionFor (extra : Bytes) : Nat := if extra.isEmpty then 20 else 45

namespace Member

def nameBytes (m : Member) : Bytes := Bytes.ofText m.name

def flags (m : Member) : Nat := 0x800 + if m.encrypted then 1 else 0

def description (m : Member) (extra : Bytes) : List (Nat × Nat) := [
  (2, m.flags), (2, m.method), (2, 0), (2, 0x21), (4, (Crc32.checksum m.data).toNat),
  (4, Nat.min m.data.length thresholdOfSize), (4, Nat.min m.data.length thresholdOfSize),
  (2, m.nameBytes.length), (2, extra.length)]

def localExtra (m : Member) : Bytes := wideField [m.data.length, m.data.length]

def localRecord (m : Member) : Bytes :=
  localSignature ++ fields ((2, versionFor m.localExtra) :: m.description m.localExtra) ++
    m.nameBytes ++ m.localExtra ++ m.data

def centralExtra (m : Member) (offset : Nat) : Bytes :=
  wideField [m.data.length, m.data.length, offset]

def centralRecord (m : Member) (offset : Nat) : Bytes :=
  let version := versionFor (m.centralExtra offset)
  centralSignature ++ fields ((2, version) :: (2, version) :: m.description (m.centralExtra offset) ++
    [(2, 0), (2, 0), (2, 0), (4, 0), (4, Nat.min offset thresholdOfSize)]) ++
    m.nameBytes ++ m.centralExtra offset

end Member

def localRecords (members : List Member) : Bytes := members.flatMap Member.localRecord

def centralRecords (offset : Nat) : List Member → Bytes
  | [] => []
  | m :: rest => m.centralRecord offset ++ centralRecords (offset + m.localRecord.length) rest

def endRecord (count size offset : Nat) : Bytes :=
  endSignature ++ fields [(2, 0), (2, 0), (2, Nat.min count thresholdOfEntries),
    (2, Nat.min count thresholdOfEntries), (4, Nat.min size thresholdOfSize),
    (4, Nat.min offset thresholdOfSize), (2, 0)]

def largeEndRecord (count size offset : Nat) : Bytes :=
  largeEndSignature ++ fields [(8, 44), (2, 45), (2, 45), (4, 0), (4, 0), (8, count), (8, count),
    (8, size), (8, offset)]

def largeLocator (offset : Nat) : Bytes :=
  largeLocatorSignature ++ fields [(4, 0), (8, offset), (4, 1)]

def largeEnding (count size offset : Nat) : Bytes :=
  if thresholdOfEntries ≤ count ∨ thresholdOfSize ≤ size ∨ thresholdOfSize ≤ offset then
    largeEndRecord count size offset ++ largeLocator (offset + size)
  else []

def closed (count : Nat) (files directory : Bytes) : Bytes :=
  files ++ directory ++ largeEnding count directory.length files.length ++
    endRecord count directory.length files.length

def pack (members : List Member) : Bytes :=
  closed members.length (localRecords members) (centralRecords 0 members)

end IndexKeeper.Archive
