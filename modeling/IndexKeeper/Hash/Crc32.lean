import IndexKeeper.Bytes

set_option autoImplicit false

namespace IndexKeeper.Crc32

def bitStep (crc : UInt32) : UInt32 :=
  if crc &&& 1 = 1 then (crc >>> 1) ^^^ 0xedb88320 else crc >>> 1

def bits : Nat → UInt32 → UInt32
  | 0, crc => crc
  | n + 1, crc => bits n (bitStep crc)

def feed (crc : UInt32) (byte : UInt8) : UInt32 := bits 8 (crc ^^^ byte.toUInt32)

def checksum (bytes : Bytes) : UInt32 := bytes.foldl feed 0xffffffff ^^^ 0xffffffff

end IndexKeeper.Crc32
