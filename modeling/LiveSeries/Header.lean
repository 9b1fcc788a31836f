/-!
# Payload headers

One byte in front of every payload: whether it is binary, how it is compressed, whether it is
timestamped, and the version of its converter. Two bits are reserved and must be clear.
-/

namespace LiveSeries

/-- How a payload is compressed, numbered in this order. -/
inductive Compression where
  | none
  | gzip
  | lz4
  | zstd
  deriving DecidableEq, Repr

namespace Compression

/-- The number of a method. -/
def code : Compression → Nat
  | .none => 0
  | .gzip => 1
  | .lz4 => 2
  | .zstd => 3

/-- The method with a number, of which the lowest two bits count. -/
def ofCode (n : Nat) : Compression :=
  match n % 4 with
  | 0 => .none
  | 1 => .gzip
  | 2 => .lz4
  | _ => .zstd

theorem ofCode_code (c : Compression) : ofCode c.code = c := by cases c <;> rfl

end Compression

/-- A byte that carries the settings of a payload. -/
structure Header where
  byte : UInt8
  deriving DecidableEq, Repr

/-- Why there is no header. -/
inductive HeaderRefusal where
  | reservedBits (byte : UInt8)
  | converterVersion (version : Nat)
  deriving DecidableEq, Repr

/-- Eight binary digits. -/
def binaryDigits (byte : UInt8) : String :=
  String.ofList ((List.range 8).map fun i =>
    if byte.toNat.testBit (7 - i) then '1' else '0')

/-- The text shown for a header that cannot be. -/
def HeaderRefusal.message : HeaderRefusal → String
  | .reservedBits byte => "reserved payload header bits set: 0b" ++ binaryDigits byte
  | .converterVersion version =>
    "converter version " ++ toString version ++ " does not fit in the header"

namespace Header

/-- The header of a plain, uncompressed text. -/
def plain : Header := ⟨0⟩

/-- The reserved bits. -/
def reserved : UInt8 := 0b10010000

/-- The bits of the compression method. -/
def compressionBits : UInt8 := 0b00000110

/-- The header with the given settings. -/
def make (binary : Bool) (compression : Compression) (timestamped : Bool) (version : Nat) :
    Except HeaderRefusal Header :=
  if version > 3 then .error (.converterVersion version)
  else
    let binaryBit : UInt8 := if binary then 1 else 0
    let timestampBit : UInt8 := if timestamped then 8 else 0
    .ok ⟨binaryBit ||| (UInt8.ofNat compression.code <<< 1) ||| timestampBit
      ||| (UInt8.ofNat version <<< 5)⟩

/-- Reads a byte as a header; a reserved bit that is set is an error. -/
def decode (byte : UInt8) : Except HeaderRefusal Header :=
  if byte &&& reserved ≠ 0 then .error (.reservedBits byte) else .ok ⟨byte⟩

def isBinary (h : Header) : Bool := h.byte &&& 1 != 0

def isTimestamped (h : Header) : Bool := h.byte &&& 8 != 0

def compression (h : Header) : Compression := .ofCode (h.byte >>> 1).toNat

def version (h : Header) : Nat := ((h.byte >>> 5) &&& 3).toNat

/-- The same header with another compression method. -/
def withCompression (h : Header) (c : Compression) : Header :=
  ⟨(h.byte &&& ~~~compressionBits) ||| (UInt8.ofNat c.code <<< 1)⟩

end Header

end LiveSeries
