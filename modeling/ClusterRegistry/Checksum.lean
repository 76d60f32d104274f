import ClusterRegistry.Bytes

/-!
The reflected CRC-32C: a register that starts with all bits set takes in one byte after the
other, and its complement is the checksum.
-/
namespace ClusterRegistry.Checksum

/-- The generator polynomial, lowest bit for the highest power, without its leading term. -/
def polynomial : UInt32 := 0x82F63B78

/-- Divide out one bit. -/
def shiftBit (register : UInt32) : UInt32 :=
  if register &&& 1 = 0 then register >>> 1 else register >>> 1 ^^^ polynomial

def absorb (register : UInt32) (byte : UInt8) : UInt32 :=
  Nat.repeat shiftBit 8 (register ^^^ byte.toUInt32)

def crc32c (bytes : Bytes) : UInt32 :=
  bytes.foldl absorb 0xFFFFFFFF ^^^ 0xFFFFFFFF

end ClusterRegistry.Checksum
