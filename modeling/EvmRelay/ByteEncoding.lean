import EvmRelay.MachineWords
import Mathlib.Tactic.Common

namespace EvmRelay.ByteEncoding

-- static_cast<uint8_t>((value >> shift) & 0xFF)
def byteAt (word : BitVec w) (shift : Nat) : UInt8 :=
  UInt8.ofNat ((word >>> shift) &&& 0xFF#w).toNat

-- The shared push_back loop of append_u32_be, append_u64_be and
-- append_uint256_be: most significant of `count` bytes first.
def appendBe (out : List UInt8) (word : BitVec w) : Nat → List UInt8
  | 0 => out
  | count+1 => appendBe (out ++ [byteAt word (8 * count)]) word count

def appendU32Be (out : List UInt8) (word : BitVec 32) : List UInt8 := appendBe out word 4
def appendU64Be (out : List UInt8) (word : BitVec 64) : List UInt8 := appendBe out word 8
def appendUint256Be (out : List UInt8) (word : BitVec 256) : List UInt8 := appendBe out word 32

def appendArray (out : List UInt8) (array : FixedBytes n) : List UInt8 := out ++ array.toList

def appendLengthPrefixedBytes (out : List UInt8) (bytes : StdVector UInt8) : List UInt8 :=
  appendU64Be out (BitVec.ofNat 64 bytes.items.length) ++ bytes.items

def appendLengthPrefixedArrays (out : List UInt8) (arrays : StdVector (FixedBytes n)) : List UInt8 :=
  arrays.items.foldl appendArray (appendU64Be out (BitVec.ofNat 64 arrays.items.length))

-- The shared read loop: value = (value << 8) | data_[offset_++].
def readBe (w : Nat) (bytes : List UInt8) : BitVec w :=
  bytes.foldl (fun word byte => (word <<< 8) ||| BitVec.ofNat w byte.toNat) 0#w

theorem byteAt_eq (word : BitVec w) (shift : Nat) (wide : 8 ≤ w) :
    byteAt word shift = UInt8.ofNat (word.toNat / 2 ^ shift) := by
  have mask : (0xFF#w).toNat = 2 ^ 8 - 1 := by
    have power : 2 ^ 8 ≤ 2 ^ w := Nat.pow_le_pow_right (by decide) wide
    exact Nat.mod_eq_of_lt (by omega)
  apply UInt8.toNat_inj.mp
  simp only [byteAt,BitVec.toNat_and,mask,BitVec.toNat_ushiftRight,Nat.shiftRight_eq_div_pow,
    Nat.and_two_pow_sub_one_eq_mod,UInt8.toNat_ofNat',Nat.mod_mod]

theorem appendBe_eq (word : BitVec w) (wide : 8 ≤ w) : appendBe out word count = out ++ BigEndian.fixed count word.toNat := by
  induction count generalizing out with
  | zero => simp [appendBe,BigEndian.fixed]
  | succ count ih =>
    have power : 2 ^ (8 * count) = 256 ^ count := by rw [Nat.pow_mul]
    rw [appendBe,ih,byteAt_eq word _ wide,power,Nat.add_comm count 1,BigEndian.fixed_append]
    simp [BigEndian.fixed]

theorem shift_or_toNat (word : BitVec w) (byte : UInt8) (room : word.toNat * 256 + 256 ≤ 2 ^ w) :
    ((word <<< 8) ||| BitVec.ofNat w byte.toNat).toNat = word.toNat * 256 + byte.toNat := by
  have small := byte.toNat_lt
  have fits : byte.toNat < 2 ^ w := by omega
  have shifted : word.toNat <<< 8 < 2 ^ w := by rw [Nat.shiftLeft_eq]; omega
  rw [BitVec.toNat_or,BitVec.toNat_shiftLeft,BitVec.toNat_ofNat,Nat.mod_eq_of_lt fits,
    Nat.mod_eq_of_lt shifted,← Nat.shiftLeft_add_eq_or_of_lt small,Nat.shiftLeft_eq]

theorem readBe_toNat (w : Nat) (bytes : List UInt8) (wide : 256 ^ bytes.length ≤ 2 ^ w) :
    (readBe w bytes).toNat = BigEndian.value bytes := by
  induction bytes using List.reverseRecOn with
  | nil => simp [readBe]
  | append_singleton bytes byte ih =>
    rw [List.length_append,List.length_singleton,Nat.pow_succ] at wide
    have before := ih (by omega)
    have room : BigEndian.value bytes * 256 + 256 ≤ 2 ^ w := by
      have bound := BigEndian.value_lt bytes
      calc BigEndian.value bytes * 256 + 256 = (BigEndian.value bytes + 1) * 256 := by omega
        _ ≤ 256 ^ bytes.length * 256 := Nat.mul_le_mul_right _ bound
        _ ≤ 2 ^ w := wide
    have step : readBe w (bytes ++ [byte]) = (readBe w bytes <<< 8) ||| BitVec.ofNat w byte.toNat := by
      simp [readBe]
    rw [step,shift_or_toNat _ _ (before ▸ room),before,BigEndian.value_snoc]

theorem appendLengthPrefixedArrays_eq : appendLengthPrefixedArrays out arrays =
      appendU64Be out (BitVec.ofNat 64 arrays.items.length) ++ arrays.items.flatMap List.Vector.toList := by
  unfold appendLengthPrefixedArrays
  generalize appendU64Be out (BitVec.ofNat 64 arrays.items.length) = front
  induction arrays.items generalizing front with
  | nil => simp
  | cons array rest ih => simp [ih,appendArray,List.append_assoc]

end EvmRelay.ByteEncoding
