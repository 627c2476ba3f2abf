import Mathlib.Data.Nat.Digits.Defs
import Mathlib.Data.Nat.Digits.Lemmas

namespace EvmRelay.BigEndian

-- Base-256 numerals, most significant byte first. The fold is the one every
-- byte reader runs; Mathlib's digit lists are the same numeral read backwards.
def value (bytes : List UInt8) : Nat :=
  bytes.foldl (fun total byte => total * 256 + byte.toNat) 0

def fixed : Nat → Nat → List UInt8
  | 0,_ => []
  | width+1,n => fixed width (n / 256) ++ [UInt8.ofNat n]

def byteLength (n : Nat) : Nat := if n = 0 then 0 else n.log2 / 8 + 1

-- The shortest numeral: no bytes at all for zero, no leading zero otherwise.
def minimal (n : Nat) : List UInt8 := fixed (byteLength n) n

@[simp] theorem value_nil : value [] = 0 := rfl

theorem value_snoc (bytes : List UInt8) : value (bytes ++ [byte]) = value bytes * 256 + byte.toNat := by
  simp [value]

theorem value_digits : value bytes = Nat.ofDigits 256 (bytes.reverse.map UInt8.toNat) := by
  induction bytes using List.reverseRecOn with
  | nil => rfl
  | append_singleton bytes byte ih =>
    rw [value_snoc,ih,List.reverse_append,List.reverse_singleton,List.singleton_append,
      List.map_cons,Nat.ofDigits_cons]
    omega

theorem value_append (high low : List UInt8) : value (high ++ low) = value high * 256 ^ low.length + value low := by
  simp only [value_digits,List.reverse_append,List.map_append,Nat.ofDigits_append,
    List.length_map,List.length_reverse]
  ring

@[simp] theorem value_singleton : value [byte] = byte.toNat := by simp [value]

theorem value_cons (byte : UInt8) (low : List UInt8) : value (byte :: low) = byte.toNat * 256 ^ low.length + value low := by
  have split := value_append [byte] low
  simpa using split

theorem value_lt (bytes : List UInt8) : value bytes < 256 ^ bytes.length := by
  have bound := Nat.ofDigits_lt_base_pow_length (b := 256) (l := bytes.reverse.map UInt8.toNat)
    (by decide) (by
      intro digit member
      obtain ⟨byte,_,rfl⟩ := List.mem_map.mp member
      exact byte.toNat_lt)
  simpa [value_digits] using bound

@[simp] theorem fixed_length (width n : Nat) : (fixed width n).length = width := by
  induction width generalizing n with
  | zero => rfl
  | succ width ih => simp [fixed,ih]

theorem value_fixed : value (fixed width n) = n % 256 ^ width := by
  induction width generalizing n with
  | zero => simp [fixed,Nat.mod_one]
  | succ width ih =>
    have low : (UInt8.ofNat n).toNat = n % 256 := by simp
    rw [fixed,value_snoc,ih,low,Nat.pow_succ,Nat.mul_comm (256 ^ width) 256,Nat.mod_mul]
    omega

theorem value_fixed_of_lt (small : n < 256 ^ width) : value (fixed width n) = n := by
  rw [value_fixed,Nat.mod_eq_of_lt small]

theorem fixed_value (bytes : List UInt8) : fixed bytes.length (value bytes) = bytes := by
  induction bytes using List.reverseRecOn with
  | nil => rfl
  | append_singleton bytes byte ih =>
    have small := byte.toNat_lt
    have high : (value bytes * 256 + byte.toNat) / 256 = value bytes := by omega
    have low : UInt8.ofNat (value bytes * 256 + byte.toNat) = byte := by
      apply UInt8.toNat_inj.mp
      simp only [UInt8.toNat_ofNat']
      omega
    rw [List.length_append,List.length_singleton,fixed,value_snoc,high,low,ih]

theorem fixed_append (high low n : Nat) : fixed (high + low) n = fixed high (n / 256 ^ low) ++ fixed low n := by
  induction low generalizing n with
  | zero => simp [fixed]
  | succ low ih =>
    rw [← Nat.add_assoc,fixed,ih,fixed,List.append_assoc,Nat.div_div_eq_div_mul,Nat.pow_succ,
      Nat.mul_comm 256]

theorem fixed_mod : fixed width (n % 256 ^ width) = fixed width n := by
  have same := fixed_value (fixed width n)
  rwa [fixed_length,value_fixed] at same

theorem lt_byteLength (n : Nat) : n < 256 ^ byteLength n := by
  unfold byteLength
  split_ifs with positive
  · simp_all
  have top : n < 2 ^ (n.log2 + 1) := Nat.lt_log2_self
  have wide : n.log2 + 1 ≤ 8 * (n.log2 / 8 + 1) := by omega
  calc n < 2 ^ (n.log2 + 1) := top
    _ ≤ 2 ^ (8 * (n.log2 / 8 + 1)) := Nat.pow_le_pow_right (by decide) wide
    _ = 256 ^ (n.log2 / 8 + 1) := by rw [Nat.pow_mul]

theorem byteLength_le (small : n < 256 ^ width) : byteLength n ≤ width := by
  unfold byteLength
  split_ifs with positive
  · exact Nat.zero_le _
  · have bits : n < 2 ^ (8 * width) := by rwa [Nat.pow_mul]
    have top := (Nat.log2_lt positive).mpr bits
    omega

theorem byteLength_le_iff : byteLength n ≤ width ↔ n < 256 ^ width := by
  constructor
  · intro short
    exact Nat.lt_of_lt_of_le (lt_byteLength n) (Nat.pow_le_pow_right (by decide) short)
  · exact byteLength_le

theorem byteLength_eq (low : 256 ^ width ≤ n) (high : n < 256 ^ (width + 1)) : byteLength n = width + 1 := by
  have upper := byteLength_le high
  have lower : ¬ byteLength n ≤ width := by
    rw [byteLength_le_iff]
    omega
  omega

@[simp] theorem byteLength_zero : byteLength 0 = 0 := rfl

theorem byteLength_pos (positive : n ≠ 0) : 0 < byteLength n := by
  simp [byteLength,positive]

theorem byteLength_div (positive : n / 256 ^ shift ≠ 0) : byteLength n = byteLength (n / 256 ^ shift) + shift := by
  have bounds : ∀ width, byteLength n ≤ width + shift ↔ byteLength (n / 256 ^ shift) ≤ width := by
    intro width
    rw [byteLength_le_iff,byteLength_le_iff,Nat.pow_add,Nat.div_lt_iff_lt_mul (Nat.pow_pos (by decide))]
  have upper := (bounds _).mpr (Nat.le_refl _)
  have some := byteLength_pos positive
  have lower : ¬ byteLength n ≤ byteLength (n / 256 ^ shift) - 1 + shift := by
    rw [bounds]
    omega
  omega

@[simp] theorem minimal_length (n : Nat) : (minimal n).length = byteLength n := fixed_length _ _

@[simp] theorem minimal_zero : minimal 0 = [] := rfl

theorem value_minimal (n : Nat) : value (minimal n) = n := value_fixed_of_lt (lt_byteLength n)

theorem minimal_value (leading : byte ≠ 0) : minimal (value (byte :: low)) = byte :: low := by
  have positive : 0 < byte.toNat := by
    rcases Nat.eq_zero_or_pos byte.toNat with zero | positive
    · exact absurd (UInt8.toNat_inj.mp (by simpa using zero)) leading
    · exact positive
  have lower : 256 ^ low.length ≤ value (byte :: low) := by
    rw [value_cons]
    calc 256 ^ low.length = 1 * 256 ^ low.length := (Nat.one_mul _).symm
      _ ≤ byte.toNat * 256 ^ low.length := Nat.mul_le_mul_right _ positive
      _ ≤ byte.toNat * 256 ^ low.length + value low := Nat.le_add_right _ _
  have width := byteLength_eq lower (value_lt ..)
  unfold minimal
  rw [width]
  exact fixed_value (byte :: low)

theorem minimal_leading (spelled : minimal n = byte :: low) : byte ≠ 0 := by
  rintro rfl
  have size : byteLength n = low.length + 1 := by
    rw [← minimal_length,spelled,List.length_cons]
  have small : n < 256 ^ low.length := by
    rw [← value_minimal n,spelled,value_cons]
    simpa using value_lt low
  have short := byteLength_le small
  omega

theorem value_replicate_append : value (List.replicate count 0 ++ bytes) = value bytes := by
  induction count with
  | zero => simp
  | succ count ih => simpa [List.replicate_succ,value_cons] using ih

end EvmRelay.BigEndian
