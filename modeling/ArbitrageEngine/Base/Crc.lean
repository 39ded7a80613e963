import ArbitrageEngine.Base.Bytes

/-!
# The CRC-32 of a byte string

The reflected cyclic redundancy check with the polynomial `0xEDB88320`, register and result
complemented. A register takes its bytes in as many pieces as they come in.
-/

namespace Base.Crc

/-- One bit leaves the register. -/
def shift (register : UInt32) : UInt32 :=
  if register &&& 1 = 1 then (register >>> 1) ^^^ 0xEDB88320 else register >>> 1

/-- One byte enters the register. -/
def processByte (register : UInt32) (byte : UInt8) : UInt32 :=
  Nat.repeat shift 8 (register ^^^ byte.toUInt32)

/-- The bytes enter the register. -/
def processBytes (register : UInt32) (bytes : Bytes) : UInt32 := bytes.foldl processByte register

/-- The register before the first byte. -/
def initial : UInt32 := 0xFFFFFFFF

/-- The check of what has entered the register. -/
def checksum (register : UInt32) : UInt32 := register ^^^ 0xFFFFFFFF

/-- The CRC-32. -/
def crc32 (bytes : Bytes) : UInt32 := checksum (processBytes initial bytes)

/-- Bytes that come in two pieces. -/
theorem processBytes_append (register : UInt32) (bytes more : Bytes) :
    processBytes register (bytes ++ more) = processBytes (processBytes register bytes) more :=
  List.foldl_append

example : crc32 (ascii "123456789") = 0xCBF43926 := by decide +kernel

end Base.Crc
