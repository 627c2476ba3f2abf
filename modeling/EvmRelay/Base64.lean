import EvmRelay.BigEndian

namespace EvmRelay.Base64

-- The url-safe alphabet of RFC 4648; a character stands for its place in it.
def alphabet : List UInt8 :=
  "ABCDEFGHIJKLMNOPQRSTUVWXYZabcdefghijklmnopqrstuvwxyz0123456789-_".toList.map fun c => UInt8.ofNat c.toNat

-- The number that the six-bit values of a text make up one behind the other.
def value : List UInt8 → Nat
  | [] => 0
  | c :: rest => alphabet.idxOf c * 64 ^ rest.length + value rest

def digits : Nat → Nat → List UInt8
  | 0,_ => []
  | count+1,n => alphabet.getD (n / 64 ^ count % 64) 0 :: digits count n

-- Zero bits fill up the last group of six, and '=' the last group of four characters.
def width (bytes : List UInt8) : Nat := (8 * bytes.length + 5) / 6

def encode (bytes : List UInt8) : List UInt8 :=
  digits (width bytes) (BigEndian.value bytes * 2 ^ (6 * width bytes - 8 * bytes.length))

def padding (bytes : List UInt8) : List UInt8 := List.replicate ((4 - width bytes % 4) % 4) 0x3d

def leading (text : List UInt8) : List UInt8 :=
  BigEndian.fixed (6 * text.length / 8) (value text / 2 ^ (6 * text.length % 8))

theorem alphabet_known : ∀ k < 64,alphabet.getD k 0 ∈ alphabet ∧ alphabet.idxOf (alphabet.getD k 0) = k := by decide +kernel

theorem idxOf_lt (known : c ∈ alphabet) : alphabet.idxOf c < 64 := List.idxOf_lt_length_of_mem known

theorem digits_length (count n : Nat) : (digits count n).length = count := by
  induction count with
  | zero => rfl
  | succ count ih => rw [digits,List.length_cons,ih]

theorem digits_known (count n : Nat) : ∀ c ∈ digits count n,c ∈ alphabet := by
  induction count with
  | zero => exact nofun
  | succ count ih =>
    intro c member
    rcases List.mem_cons.mp member with rfl | later
    · exact (alphabet_known _ (Nat.mod_lt _ (by decide))).1
    · exact ih c later

theorem value_digits (count n : Nat) : value (digits count n) = n % 64 ^ count := by
  induction count with
  | zero => exact (Nat.mod_one n).symm
  | succ count ih =>
    rw [digits,value,ih,digits_length,(alphabet_known _ (Nat.mod_lt _ (by decide))).2,Nat.pow_succ,Nat.mod_mul]
    ring

theorem value_lt (known : ∀ c ∈ text,c ∈ alphabet) : value text < 64 ^ text.length := by
  induction text with
  | nil => exact Nat.one_pos
  | cons c rest ih =>
    have first := idxOf_lt (known c List.mem_cons_self)
    have others := ih fun c member => known c (List.mem_cons_of_mem _ member)
    rw [value,List.length_cons]
    have room := Nat.mul_le_mul_right (64 ^ rest.length) (show _ ≤ 63 from Nat.le_of_lt_succ first)
    omega

theorem leading_encode (bytes : List UInt8) : leading (encode bytes) = bytes := by
  have bits : 6 * width bytes / 8 = bytes.length ∧ 6 * width bytes % 8 = 6 * width bytes - 8 * bytes.length ∧
      8 * bytes.length ≤ 6 * width bytes := by
    unfold width
    omega
  have number : value (encode bytes) = BigEndian.value bytes * 2 ^ (6 * width bytes - 8 * bytes.length) := by
    have below := BigEndian.value_lt bytes
    rw [encode,value_digits]
    apply Nat.mod_eq_of_lt
    calc BigEndian.value bytes * 2 ^ (6 * width bytes - 8 * bytes.length)
        < 256 ^ bytes.length * 2 ^ (6 * width bytes - 8 * bytes.length) := by gcongr
      _ = 2 ^ (8 * bytes.length + (6 * width bytes - 8 * bytes.length)) := by rw [Nat.pow_add,Nat.pow_mul]
      _ = 64 ^ width bytes := by rw [Nat.add_sub_cancel' bits.2.2,Nat.pow_mul]
  rw [leading,number,encode,digits_length,bits.1,bits.2.1,Nat.mul_div_cancel _ (by positivity),BigEndian.fixed_value]

example : encode [0x66,0x6f,0x6f,0x62,0x61] ++ padding [0x66,0x6f,0x6f,0x62,0x61] = "Zm9vYmE=".toList.map (UInt8.ofNat ·.toNat) := by
  decide +kernel

end EvmRelay.Base64
