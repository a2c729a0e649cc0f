import FieldMap.Bytes

/-!
# LZS compression

Field files are stored compressed. The payload is a sequence of items in
groups of eight, each group behind a byte of flags of which the lowest bit
belongs to the first item. A set bit announces a literal byte, a clear bit
two bytes that refer back: to a place in a window of the last 4096 bytes
of output, and to a length between 3 and 18.

The window is a ring. It starts out zeroed with its cursor at `0xFEE`, so
a reference may reach into bytes that were never written and reads zeros
there, and it may overlap the bytes that it produces, which repeats them.

The payload ends where its bytes end, in the middle of an item or not, so
decompression fails on an empty payload only.
-/

namespace FieldMap.Lzs

/-- The window and the output so far. -/
structure Window where
  ring : Vector UInt8 4096
  /-- Where the next byte goes. -/
  cursor : Fin 4096
  out : Bytes

namespace Window

/-- The window before any output. -/
def empty : Window := ⟨Vector.replicate 4096 0, 0xFEE, #[]⟩

/-- Puts out a byte. -/
def push : Window → UInt8 → Window
  | ⟨ring, cursor, out⟩, b => ⟨ring.set cursor b, cursor + 1, out.push b⟩

/-- Puts out bytes of the window again, one at a time, from a place on. -/
def copy (window : Window) (place : Fin 4096) : Nat → Window
  | 0 => window
  | count + 1 => copy (window.push window.ring[place]) (place + 1) count

end Window

/-- The place in the window to which two bytes refer. -/
def referencePlace (low high : UInt8) : Fin 4096 :=
  Fin.ofNat 4096 (low.toNat + 256 * (high.toNat / 16))

/-- The number of bytes to which a reference refers. -/
def referenceLength (high : UInt8) : Nat := high.toNat % 16 + 3

/-- Reads a payload from a place on where `left` more items belong to the
group with the given flags, of which the lowest is the next. -/
def unpackFrom (window : Window) (flags : Nat) : Nat → List UInt8 → Window
  | _, [] => window
  | 0, b :: rest => unpackFrom window b.toNat 8 rest
  | left + 1, b :: rest =>
    if flags % 2 = 1 then unpackFrom (window.push b) (flags / 2) left rest
    else match rest with
      | [] => window
      | high :: rest =>
        unpackFrom (window.copy (referencePlace b high) (referenceLength high)) (flags / 2) left rest

/-- **Decompresses a payload.** -/
def decompressPayload (payload : List UInt8) : Except CodecError Bytes :=
  if payload.isEmpty then .error (.compression .emptyStream)
  else .ok (unpackFrom Window.empty 0 0 payload).out

/-- **Decompresses a payload behind its length.** What follows it is
ignored. -/
def decompress (data : Bytes) : Except CodecError Bytes := do
  let declared ← data.readLong .compressedSize 0
  if data.size - 4 < declared then .error (.compression .oversizedHeader)
  else decompressPayload (data.extract 4 (4 + declared)).toList

end FieldMap.Lzs
