import ClusterRegistry.Record

/-!
The frame in front of every record: 32 bytes that hold the magic bytes, the length and checksum
of the payload and its operation.  Reserved bytes are written back as they were read, padding is
always written as zeros.
-/
namespace ClusterRegistry.Record

def magic : Bytes := [0x4C, 0x41, 0x42, 0x53]

def headerSize : Nat := 32

structure Header where
  magic : Bytes
  length : Nat
  checksum : UInt32
  kind : UInt8
  reserved : Bytes
  padding : Bytes
deriving DecidableEq, Repr

namespace Header

def ofPayload (length : Nat) (checksum : UInt32) (operation : Operation) : Header :=
  ⟨Record.magic, length, checksum, operation.code, List.replicate 3 0, List.replicate 16 0⟩

def encode (header : Header) : Bytes :=
  header.magic ++ Bytes.littleEndian 4 header.length ++
    Bytes.littleEndian 4 header.checksum.toNat ++ [header.kind] ++ header.reserved ++
    List.replicate 16 0

/-- Cut the first 32 of `bytes` into the parts of a header. -/
def decode (bytes : Bytes) : Header where
  magic := bytes.take 4
  length := Bytes.ofLittleEndian ((bytes.drop 4).take 4)
  checksum := UInt32.ofNat (Bytes.ofLittleEndian ((bytes.drop 8).take 4))
  kind := (bytes.drop 12).headD 0
  reserved := (bytes.drop 13).take 3
  padding := (bytes.drop 16).take 16

end Header

end ClusterRegistry.Record
