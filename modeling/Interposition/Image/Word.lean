/-!
# Interposition.Image.Word — words as bytes

The words of a module image are written most significant byte first.
-/

namespace Interposition.Word

/-- The two bytes of a 16-bit word. -/
def bytes16 (w : UInt16) : List UInt8 :=
  [(w >>> 8).toUInt8, w.toUInt8]

/-- The 16-bit word of two bytes. -/
def ofBytes16 (a b : UInt8) : UInt16 :=
  (a.toUInt16 <<< 8) ||| b.toUInt16

/-- The four bytes of a 32-bit word. -/
def bytes32 (w : UInt32) : List UInt8 :=
  [(w >>> 24).toUInt8, (w >>> 16).toUInt8, (w >>> 8).toUInt8, w.toUInt8]

/-- The 32-bit word of four bytes. -/
def ofBytes32 (a b c d : UInt8) : UInt32 :=
  (a.toUInt32 <<< 24) ||| (b.toUInt32 <<< 16) ||| (c.toUInt32 <<< 8) ||| d.toUInt32

/-- The eight bytes of a 64-bit word. -/
def bytes64 (w : UInt64) : List UInt8 :=
  bytes32 (w >>> 32).toUInt32 ++ bytes32 w.toUInt32

/-- The 64-bit word of two 32-bit halves, the upper one first. -/
def ofHalves (upper lower : UInt32) : UInt64 :=
  (upper.toUInt64 <<< 32) ||| lower.toUInt64

end Interposition.Word
