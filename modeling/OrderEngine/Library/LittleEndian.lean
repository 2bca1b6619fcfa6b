import Mathlib.Tactic

namespace OrderEngine.Library

/-- The first byte is the least significant one. -/
def littleEndian : List UInt8 → Nat
  | [] => 0
  | byte :: bytes => byte.toNat + 256 * littleEndian bytes

/-- A number is written into a fixed number of bytes, and its higher digits are lost. -/
def toLittleEndian : Nat → Nat → List UInt8
  | 0, _ => []
  | width + 1, number => UInt8.ofNat number :: toLittleEndian width (number / 256)

/-- A packed field is read at its offset. -/
def readField (bytes : List UInt8) (offset width : Nat) : Nat :=
  littleEndian ((bytes.drop offset).take width)

section RoundTrip

@[simp] theorem toLittleEndian_length (width number : Nat) :
    (toLittleEndian width number).length = width := by
  induction width generalizing number with
  | zero => rfl
  | succ width ih => simp [toLittleEndian, ih]

/-- The digits beyond the width are lost, and the others come back. -/
theorem littleEndian_toLittleEndian (width number : Nat) :
    littleEndian (toLittleEndian width number) = number % 256 ^ width := by
  induction width generalizing number with
  | zero => simp [toLittleEndian, littleEndian, Nat.mod_one]
  | succ width ih =>
      have byte : (UInt8.ofNat number).toNat = number % 256 := UInt8.toNat_ofNat'
      rw [toLittleEndian, littleEndian, ih, byte, Nat.pow_succ, Nat.mul_comm, Nat.mul_comm (256 ^ width),
        Nat.mod_mul, Nat.mul_comm]

theorem toLittleEndian_littleEndian (bytes : List UInt8) :
    toLittleEndian bytes.length (littleEndian bytes) = bytes := by
  induction bytes with
  | nil => rfl
  | cons byte bytes ih =>
      have bounded := byte.toNat_lt
      have digit : UInt8.ofNat (byte.toNat + 256 * littleEndian bytes) = byte := by
        apply UInt8.toNat_inj.mp
        rw [UInt8.toNat_ofNat']
        omega
      have higher : (byte.toNat + 256 * littleEndian bytes) / 256 = littleEndian bytes := by
        omega
      rw [littleEndian, List.length_cons, toLittleEndian, digit, higher, ih]

/-- A list of bytes stands for a number that fits in them. -/
theorem littleEndian_lt (bytes : List UInt8) : littleEndian bytes < 256 ^ bytes.length := by
  rw [← toLittleEndian_littleEndian bytes, littleEndian_toLittleEndian, toLittleEndian_length]
  apply Nat.mod_lt
  positivity

/-- A field is read past the fields that stand before it. -/
theorem readField_skip {front : List UInt8} {offset : Nat} (beyond : front.length ≤ offset)
    (bytes : List UInt8) (width : Nat) :
    readField (front ++ bytes) offset width = readField bytes (offset - front.length) width := by
  rw [readField, List.drop_append, List.drop_eq_nil_of_le beyond, List.nil_append, readField]

theorem readField_here (back : List UInt8) (width number : Nat) :
    readField (toLittleEndian width number ++ back) 0 width = number % 256 ^ width := by
  have whole : (toLittleEndian width number).length = width := toLittleEndian_length width number
  rw [readField, List.drop_zero, List.take_left' whole, littleEndian_toLittleEndian]

theorem toLittleEndian_one (byte : UInt8) : toLittleEndian 1 byte.toNat = [byte] := by
  simp [toLittleEndian]

/-- The bytes of a field are written back as they were. -/
theorem toLittleEndian_readField {bytes : List UInt8} {offset width : Nat}
    (inside : offset + width ≤ bytes.length) :
    toLittleEndian width (readField bytes offset width) = (bytes.drop offset).take width := by
  have whole : ((bytes.drop offset).take width).length = width := by
    rw [List.length_take, List.length_drop]
    omega
  have written := toLittleEndian_littleEndian ((bytes.drop offset).take width)
  rw [whole] at written
  exact written

/-- Two fields that stand side by side are one run of bytes. -/
theorem take_fields (bytes : List UInt8) (offset width others : Nat) :
    (bytes.drop offset).take (width + others) =
      (bytes.drop offset).take width ++ (bytes.drop (offset + width)).take others := by
  rw [List.take_add, List.drop_drop]

theorem readField_lt (bytes : List UInt8) (offset width : Nat) :
    readField bytes offset width < 256 ^ width := by
  apply lt_of_lt_of_le (littleEndian_lt _)
  apply Nat.pow_le_pow_right (by decide)
  exact List.length_take_le _ _

end RoundTrip

end OrderEngine.Library
