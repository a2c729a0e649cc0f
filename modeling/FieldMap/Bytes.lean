import FieldMap.Error

/-!
# Byte strings

Data comes in two shapes. Bytecode is consumed from the front, so it is a
list of bytes. Everything that holds offsets into itself – archives,
field files, sections – is read at arbitrary places and is a `Bytes`, an
array.

Numbers are stored with the low byte first. `ofLittleEndian` is the value
of such a byte string and `toLittleEndian` the byte string of a value, cut
off at the given number of bytes; each undoes the other.

Every reader names the `Item` it reads. When the item does not fit, the
error says how many bytes it needs, where, and how many are left.
-/

namespace FieldMap

-- powers of numbers are those of the core library, whatever else is imported
attribute [local instance (high)] instPowNat

/-- The number that a byte string holds, low byte first. -/
def ofLittleEndian : List UInt8 → Nat
  | [] => 0
  | b :: bs => b.toNat + 256 * ofLittleEndian bs

/-- The lowest `count` bytes of a number, low byte first. -/
def toLittleEndian : Nat → Nat → List UInt8
  | 0, _ => []
  | count + 1, n => UInt8.ofNat n :: toLittleEndian count (n / 256)

@[simp] theorem length_toLittleEndian (count n : Nat) : (toLittleEndian count n).length = count := by
  induction count generalizing n with
  | zero => rfl
  | succ count ih => simp [toLittleEndian, ih]

/-- A number survives being stored, up to the bytes it is given. -/
theorem ofLittleEndian_toLittleEndian (count n : Nat) :
    ofLittleEndian (toLittleEndian count n) = n % 256 ^ count := by
  induction count generalizing n with
  | zero => simp [toLittleEndian, ofLittleEndian, Nat.mod_one]
  | succ count ih =>
    rw [toLittleEndian, ofLittleEndian, ih, Nat.pow_succ, Nat.mul_comm (256 ^ count), Nat.mod_mul]
    simp

/-- A stored number is smaller than the powers of its bytes allow. -/
theorem ofLittleEndian_lt (bs : List UInt8) : ofLittleEndian bs < 256 ^ bs.length := by
  induction bs with
  | nil => simp [ofLittleEndian]
  | cons b bs ih =>
    have := b.toNat_lt
    rw [ofLittleEndian, List.length_cons, Nat.pow_succ]
    omega

/-- Bytes survive being read as a number. -/
theorem toLittleEndian_ofLittleEndian (bs : List UInt8) :
    toLittleEndian bs.length (ofLittleEndian bs) = bs := by
  induction bs with
  | nil => rfl
  | cons b bs ih =>
    have hb := b.toNat_lt
    have hdiv : (b.toNat + 256 * ofLittleEndian bs) / 256 = ofLittleEndian bs := by omega
    have hmod : UInt8.ofNat (b.toNat + 256 * ofLittleEndian bs) = b := by
      apply UInt8.toNat_inj.mp
      simp only [UInt8.toNat_ofNat']
      omega
    rw [List.length_cons, ofLittleEndian, toLittleEndian, hdiv, hmod, ih]

/-- **Bytes that are read at offsets.** -/
abbrev Bytes := Array UInt8

namespace Bytes

/-- `count` bytes at `offset`. -/
def slice (data : Bytes) (item : Item) (offset count : Nat) : Except CodecError Bytes :=
  if offset + count ≤ data.size then .ok (data.extract offset (offset + count))
  else .error (.truncated item offset count (data.size - offset))

/-- The number in the `count` bytes at `offset`. -/
def readNumber (data : Bytes) (item : Item) (offset count : Nat) : Except CodecError Nat :=
  (data.slice item offset count).map fun part => ofLittleEndian part.toList

/-- The byte at `offset`. -/
def readByte (data : Bytes) (item : Item) (offset : Nat) : Except CodecError Nat :=
  data.readNumber item offset 1

/-- The two-byte number at `offset`. -/
def readWord (data : Bytes) (item : Item) (offset : Nat) : Except CodecError Nat :=
  data.readNumber item offset 2

/-- The four-byte number at `offset`. -/
def readLong (data : Bytes) (item : Item) (offset : Nat) : Except CodecError Nat :=
  data.readNumber item offset 4

/-- The byte at `offset`, and zero past the end. -/
def byteAt (data : Bytes) (offset : Nat) : UInt8 := data.getD offset 0

/-- The two-byte word at `offset`, its bytes read by `byteAt`. -/
def wordAt (data : Bytes) (offset : Nat) : UInt16 :=
  UInt16.ofNat (ofLittleEndian [data.byteAt offset, data.byteAt (offset + 1)])

end Bytes

/-- `count` bytes at `offset` of a stream. -/
def window (item : Item) (offset count : Nat) (stream : List UInt8) :
    Except CodecError (List UInt8) :=
  let part := (stream.drop offset).take count
  if part.length = count then .ok part
  else .error (.truncated item offset count (stream.length - offset))

/-- The byte at `offset` of a stream. -/
def byteOf (item : Item) (offset : Nat) (stream : List UInt8) : Except CodecError UInt8 :=
  match stream[offset]? with
  | some b => .ok b
  | none => .error (.truncated item offset 1 (stream.length - offset))

end FieldMap
