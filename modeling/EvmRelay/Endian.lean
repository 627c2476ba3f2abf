import EvmRelay.ByteEncoding
import Mathlib.Tactic.Ring

namespace EvmRelay

-- rlp::DecodingError; the streaming codes are shared with the plain decoder.
inductive DecodingError where
  | kOverflow | kLeadingZero | kInputTooShort | kInputTooLong | kNonCanonicalSize
  | kUnexpectedList | kUnexpectedString | kUnexpectedLength | kUnexpectedListElements
  | kInvalidVrsValue | kListLengthMismatch | kNotInList | kMalformedHeader
  | kAlreadyFinalized | kNotFinalized | kInvalidChunkSize | kHeaderSizeExceeded
  deriving DecidableEq

-- intx::uint256 is four 64-bit words, words_[0] least significant.
namespace Intx

def word (x : BitVec 256) (i : Nat) : BitVec 64 := x.extractLsb' (64 * i) 64

def ofWords (w0 w1 w2 w3 : BitVec 64) : BitVec 256 := w3 ++ (w2 ++ (w1 ++ w0))

def clz (x : BitVec 64) : Nat := if x = 0#64 then 64 else 63 - x.toNat.log2

def countSignificantWords (x : BitVec 256) : Nat → Nat
  | 0 => 0
  | i+1 => if word x i ≠ 0#64 then i + 1 else countSignificantWords x i

def countSignificantBytes64 (x : BitVec 64) : Nat := (64 - clz x + 7) / 8

def countSignificantBytes (x : BitVec 256) : Nat :=
  let w := countSignificantWords x 4
  if w ≠ 0 then countSignificantBytes64 (word x (w - 1)) + (w - 1) * 8 else 0

-- be::store and be::load swap the bytes of every word and the order of words.
def beStore (x : BitVec 256) : List UInt8 :=
  BigEndian.fixed 8 (word x 3).toNat ++ (BigEndian.fixed 8 (word x 2).toNat ++
    (BigEndian.fixed 8 (word x 1).toNat ++ BigEndian.fixed 8 (word x 0).toNat))

def beLoadWord (bytes : List UInt8) (position : Nat) : BitVec 64 :=
  BitVec.ofNat 64 (BigEndian.value ((bytes.drop position).take 8))

def beLoad (bytes : List UInt8) : BitVec 256 :=
  ofWords (beLoadWord bytes 24) (beLoadWord bytes 16) (beLoadWord bytes 8) (beLoadWord bytes 0)

theorem word_toNat : (word x i).toNat = x.toNat / 256 ^ (8 * i) % 256 ^ 8 := by
  have power : 2 ^ (64 * i) = 256 ^ (8 * i) := by
    rw [show 64 * i = 8 * (8 * i) by omega,Nat.pow_mul]
  have limit : 2 ^ 64 = 256 ^ 8 := by decide
  rw [word,BitVec.extractLsb'_toNat,Nat.shiftRight_eq_div_pow,power,limit]

theorem countSignificantBytes64_eq : countSignificantBytes64 x = BigEndian.byteLength x.toNat := by
  unfold countSignificantBytes64 clz BigEndian.byteLength
  by_cases zero : x = 0#64
  · simp [zero]
  · have nonzero : x.toNat ≠ 0 := fun same => zero (BitVec.eq_of_toNat_eq (by simpa using same))
    have bits := (Nat.log2_lt nonzero).mpr x.isLt
    rw [if_neg zero,if_neg nonzero]
    omega

theorem countSignificantWords_bytes (small : x.toNat < 256 ^ (8 * i)) : (if countSignificantWords x i ≠ 0 then
      countSignificantBytes64 (word x (countSignificantWords x i - 1)) + (countSignificantWords x i - 1) * 8
      else 0) = BigEndian.byteLength x.toNat := by
  induction i with
  | zero =>
    have zero : x.toNat = 0 := by simpa using small
    simp [countSignificantWords,zero]
  | succ i ih =>
    have top : x.toNat / 256 ^ (8 * i) < 256 ^ 8 := by
      rw [Nat.div_lt_iff_lt_mul (by positivity),← Nat.pow_add]
      simpa [Nat.mul_succ,Nat.add_comm] using small
    have high : (word x i).toNat = x.toNat / 256 ^ (8 * i) := by
      rw [word_toNat,Nat.mod_eq_of_lt top]
    by_cases zero : word x i = 0#64
    · have below : x.toNat < 256 ^ (8 * i) := by
        have quotient : x.toNat / 256 ^ (8 * i) = 0 := by rw [← high,zero]; rfl
        exact (Nat.div_eq_zero_iff_lt (by positivity)).mp quotient
      have same : countSignificantWords x (i + 1) = countSignificantWords x i := by
        simp [countSignificantWords,zero]
      rw [same]
      exact ih below
    · have found : countSignificantWords x (i + 1) = i + 1 := by
        simp [countSignificantWords,zero]
      have positive : x.toNat / 256 ^ (8 * i) ≠ 0 := by
        rw [← high]
        exact fun same => zero (BitVec.eq_of_toNat_eq (by simpa using same))
      rw [found,if_pos (by omega),Nat.add_sub_cancel,countSignificantBytes64_eq,high,
        BigEndian.byteLength_div positive]
      omega

theorem countSignificantBytes_eq : countSignificantBytes x = BigEndian.byteLength x.toNat :=
  countSignificantWords_bytes x.isLt

theorem beStore_eq : beStore x = BigEndian.fixed 32 x.toNat := by
  have chunk : ∀ i, BigEndian.fixed 8 (word x i).toNat = BigEndian.fixed 8 (x.toNat / 256 ^ (8 * i)) := by
    intro i
    rw [word_toNat,BigEndian.fixed_mod]
  rw [beStore,chunk,chunk,chunk,chunk,BigEndian.fixed_append 8 24,BigEndian.fixed_append 8 16,
    BigEndian.fixed_append 8 8]
  simp

theorem ofWords_toNat : (ofWords w0 w1 w2 w3).toNat =
      ((w3.toNat * 256 ^ 8 + w2.toNat) * 256 ^ 8 + w1.toNat) * 256 ^ 8 + w0.toNat := by
  have join : ∀ {n : Nat} (high : BitVec 64) (low : BitVec n),
      (high ++ low).toNat = high.toNat * 2 ^ n + low.toNat := by
    intro n high low
    rw [BitVec.toNat_append,← Nat.shiftLeft_add_eq_or_of_lt low.isLt,Nat.shiftLeft_eq]
  rw [ofWords,join,join,join]
  ring

theorem beLoadWord_toNat : (beLoadWord bytes position).toNat = BigEndian.value ((bytes.drop position).take 8) := by
  have bound := BigEndian.value_lt ((bytes.drop position).take 8)
  have short : ((bytes.drop position).take 8).length ≤ 8 := by rw [List.length_take]; omega
  have power := Nat.pow_le_pow_right (show 0 < 256 by decide) short
  rw [beLoadWord,BitVec.toNat_ofNat,Nat.mod_eq_of_lt]
  calc BigEndian.value ((bytes.drop position).take 8)
      < 256 ^ ((bytes.drop position).take 8).length := bound
    _ ≤ 2 ^ 64 := power

theorem beLoad_toNat (size : bytes.length = 32) : (beLoad bytes).toNat = BigEndian.value bytes := by
  have cut : ∀ position, position + 8 ≤ 32 →
      BigEndian.value (bytes.take (position + 8)) =
        BigEndian.value (bytes.take position) * 256 ^ 8 + BigEndian.value ((bytes.drop position).take 8) := by
    intro position inside
    have size : ((bytes.drop position).take 8).length = 8 := by
      rw [List.length_take,List.length_drop]; omega
    rw [List.take_add,BigEndian.value_append,size]
  have whole : bytes.take 32 = bytes := by rw [← size,List.take_length]
  have first := cut 0 (by decide)
  have second := cut 8 (by decide)
  have third := cut 16 (by decide)
  have fourth := cut 24 (by decide)
  simp only [Nat.zero_add,List.take_zero,BigEndian.value_nil,Nat.zero_mul] at first
  rw [beLoad,ofWords_toNat,beLoadWord_toNat,beLoadWord_toNat,beLoadWord_toNat,beLoadWord_toNat,
    ← first,← second,← third,← fourth,whole]

end Intx

namespace Endian

def toBigCompactUint256 (n : BitVec 256) : List UInt8 :=
  if n = 0#256 then []
  else (Intx.beStore n).drop (32 - Intx.countSignificantBytes n)

-- The template overload widens to intx::uint256 first.
def toBigCompact (n : BitVec w) : List UInt8 :=
  if n = 0#w then []
  else
    let val : BitVec 256 := n.setWidth 256
    (Intx.beStore val).drop (32 - Intx.countSignificantBytes val)

def padded (bytes : List UInt8) : List UInt8 := List.replicate (32 - bytes.length) 0 ++ bytes

def fromBigCompactUint256 (bytes : List UInt8) : Except DecodingError (BitVec 256) :=
  match bytes with
  | [] => .ok 0#256
  | first :: _ =>
    if first = 0 ∧ bytes.length > 1 then .error .kLeadingZero
    else if bytes.length = 1 ∧ first = 0 then .ok 0#256
    else if bytes.length > 32 then .error .kOverflow
    else .ok (Intx.beLoad (padded bytes))

def fromBigCompact (w : Nat) (bytes : List UInt8) : Except DecodingError (BitVec w) :=
  match bytes with
  | [] => .ok 0#w
  | first :: _ =>
    if first = 0 ∧ bytes.length > 1 then .error .kLeadingZero
    else if bytes.length = 1 ∧ first = 0 then .ok 0#w
    else if bytes.length > 32 then .error .kOverflow
    else
      let val := Intx.beLoad (padded bytes)
      if val.toNat > 2 ^ w - 1 then .error .kOverflow else .ok (val.setWidth w)

theorem toBigCompactUint256_eq (n : BitVec 256) : toBigCompactUint256 n = BigEndian.minimal n.toNat := by
  unfold toBigCompactUint256
  by_cases zero : n = 0#256
  · simp [zero]
  · have short : BigEndian.byteLength n.toNat ≤ 32 := BigEndian.byteLength_le n.isLt
    have split := BigEndian.fixed_append (32 - BigEndian.byteLength n.toNat) (BigEndian.byteLength n.toNat) n.toNat
    rw [Nat.sub_add_cancel short] at split
    rw [if_neg zero,Intx.countSignificantBytes_eq,Intx.beStore_eq,split,List.drop_left' (by simp)]
    rfl

theorem toBigCompact_eq (n : BitVec w) (narrow : w ≤ 256) : toBigCompact n = BigEndian.minimal n.toNat := by
  have widened : (n.setWidth 256).toNat = n.toNat := BitVec.toNat_setWidth_of_le narrow
  by_cases zero : n = 0#w
  · simp [toBigCompact,zero]
  have nonzero : n.setWidth 256 ≠ 0#256 := by
    intro same
    apply zero
    apply BitVec.eq_of_toNat_eq
    rw [← widened,same]
    simp
  have wide := toBigCompactUint256_eq (n.setWidth 256)
  rw [toBigCompactUint256,if_neg nonzero,widened] at wide
  rw [toBigCompact,if_neg zero]
  exact wide

theorem beLoad_padded (bytes : List UInt8) (short : bytes.length ≤ 32) :
    (Intx.beLoad (padded bytes)).toNat = BigEndian.value bytes := by
  have size : (padded bytes).length = 32 := by simp [padded]; omega
  rw [Intx.beLoad_toNat size,padded,BigEndian.value_replicate_append]

theorem fromBigCompact_cons : fromBigCompact w (first :: rest) =
      if first = 0 then (if rest = [] then .ok 0#w else .error .kLeadingZero)
      else if (first :: rest).length > 32 ∨ BigEndian.value (first :: rest) > 2 ^ w - 1 then .error .kOverflow
      else .ok (BitVec.ofNat w (BigEndian.value (first :: rest))) := by
  by_cases zero : first = 0
  · subst zero
    cases rest with
    | nil => simp [fromBigCompact]
    | cons second rest => simp [fromBigCompact]
  · by_cases long : (first :: rest).length > 32
    · simp only [fromBigCompact,zero,false_and,and_false,if_false,long,true_or,if_true]
    · have loaded := beLoad_padded (first :: rest) (by omega)
      have narrowed : (Intx.beLoad (padded (first :: rest))).setWidth w =
          BitVec.ofNat w (BigEndian.value (first :: rest)) := by
        apply BitVec.eq_of_toNat_eq
        rw [BitVec.toNat_setWidth,loaded,BitVec.toNat_ofNat]
      simp only [fromBigCompact,zero,false_and,and_false,if_false,loaded,narrowed,long,false_or]

theorem fromBigCompact_sound (accepted : fromBigCompact w bytes = .ok n) :
    bytes = BigEndian.minimal n.toNat ∨ (bytes = [0] ∧ n = 0#w) := by
  cases bytes with
  | nil => cases accepted; exact .inl (by simp)
  | cons first rest =>
    rw [fromBigCompact_cons] at accepted
    split at accepted
    · rename_i zero
      split at accepted
      · rename_i alone
        cases accepted
        exact .inr ⟨by rw [zero,alone],rfl⟩
      · cases accepted
    · rename_i leading
      split_ifs at accepted with fits
      cases accepted
      have positive := Nat.two_pow_pos w
      have total : (BitVec.ofNat w (BigEndian.value (first :: rest))).toNat = BigEndian.value (first :: rest) := by
        rw [BitVec.toNat_ofNat,Nat.mod_eq_of_lt (by omega)]
      exact .inl (by rw [total,BigEndian.minimal_value leading])

theorem fromBigCompact_complete (n : BitVec w) (narrow : w ≤ 256) : fromBigCompact w (BigEndian.minimal n.toNat) = .ok n := by
  have total := BigEndian.value_minimal n.toNat
  have size := BigEndian.minimal_length n.toNat
  cases spelled : BigEndian.minimal n.toNat with
  | nil =>
    rw [spelled] at total
    have zero : n = 0#w := BitVec.eq_of_toNat_eq (by simpa using total.symm)
    rw [zero]
    rfl
  | cons first rest =>
    rw [spelled] at total size
    have limit : 2 ^ w ≤ 2 ^ 256 := Nat.pow_le_pow_right (by decide) narrow
    have short : BigEndian.byteLength n.toNat ≤ 32 := BigEndian.byteLength_le (Nat.lt_of_lt_of_le n.isLt limit)
    rw [fromBigCompact_cons,if_neg (BigEndian.minimal_leading spelled),total,if_neg (by omega),
      BitVec.ofNat_toNat,BitVec.setWidth_eq]

theorem fromBigCompact_exact (bytes : List UInt8) (n : BitVec w) (narrow : w ≤ 256) :
    fromBigCompact w bytes = .ok n ↔ bytes = BigEndian.minimal n.toNat ∨ (bytes = [0] ∧ n = 0#w) := by
  refine ⟨fromBigCompact_sound,?_⟩
  intro spelled
  rcases spelled with rfl | ⟨rfl,rfl⟩
  · exact fromBigCompact_complete n narrow
  · simp [fromBigCompact]

theorem fromBigCompactUint256_eq : fromBigCompactUint256 bytes = fromBigCompact 256 bytes := by
  cases bytes with
  | nil => rfl
  | cons first rest =>
    have fits : ¬ (Intx.beLoad (padded (first :: rest))).toNat > 2 ^ 256 - 1 := by
      omega
    simp only [fromBigCompactUint256,fromBigCompact,if_neg fits,BitVec.setWidth_eq]

end Endian
end EvmRelay
