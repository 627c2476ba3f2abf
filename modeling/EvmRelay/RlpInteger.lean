import EvmRelay.RlpEncoder

namespace EvmRelay.Rlp
open RlpSpec

-- The types the integral templates are instantiated at, and the overload set
-- of add and read with intx::uint256 in it.
inductive IntegralType where
  | uint8 | uint16 | uint32 | uint64
  deriving DecidableEq

def IntegralType.sizeof : IntegralType → Nat
  | .uint8 => 1
  | .uint16 => 2
  | .uint32 => 4
  | .uint64 => 8

inductive UnsignedType where
  | integral (t : IntegralType)
  | uint256
  deriving DecidableEq

def UnsignedType.sizeof : UnsignedType → Nat
  | .integral t => t.sizeof
  | .uint256 => 32

-- buf[len++] = val >> 8k for every nonzero shift, from the top byte down; the
-- lowest byte is stored in any case.
def significantBuf (val : BitVec w) : Nat → List UInt8
  | 0 => [UInt8.ofNat (val &&& 0xFF#w).toNat]
  | top+1 =>
    if val >>> (8 * (top + 1)) ≠ 0#w then
      UInt8.ofNat (val >>> (8 * (top + 1))).toNat :: significantBuf val top
    else significantBuf val top

namespace RlpEncoder

-- The branches for two, four and eight bytes differ in the top shift only.
def addMultibyte (top : Nat) (e : RlpEncoder) (val : BitVec w) : RlpEncoder :=
  if val.toNat < kRlpSingleByteThreshold then e.append [UInt8.ofNat val.toNat]
  else
    let buf := significantBuf val top
    (e.append [UInt8.ofNat (kShortStringOffset + buf.length)]).append buf

-- A one-byte value has no shifts to try; its prefix is a constant.
def addByte (e : RlpEncoder) (val : BitVec 8) : RlpEncoder :=
  if val.toNat < kRlpSingleByteThreshold then e.append [UInt8.ofNat val.toNat]
  else (e.append [UInt8.ofNat (kShortStringOffset + kLongPrefixByteSize)]).append [UInt8.ofNat val.toNat]

def addIntegral (e : RlpEncoder) (t : IntegralType) (n : BitVec (8 * t.sizeof)) : Except EncodingError RlpEncoder :=
  if n.toNat = 0 then .ok (e.append [kEmptyStringCode])
  else match t with
  | .uint8 => .ok (addByte e n)
  | .uint16 => .ok (addMultibyte 1 e n)
  | .uint32 => .ok (addMultibyte 3 e n)
  | .uint64 => .ok (addMultibyte 7 e n)

def addUint256 (e : RlpEncoder) (n : BitVec 256) : Except EncodingError RlpEncoder :=
  if n.toNat = 0 then .ok (e.append [kEmptyStringCode])
  else if n.toNat < kRlpSingleByteThreshold then .ok (e.append [UInt8.ofNat n.toNat])
  else do
    let be := Endian.toBigCompactUint256 n
    let header ← encodeHeaderBytes false be.length
    return e.append (header ++ be)

def addUnsigned (e : RlpEncoder) : (t : UnsignedType) → BitVec (8 * t.sizeof) → Except EncodingError RlpEncoder
  | .integral t,n => e.addIntegral t n
  | .uint256,n => e.addUint256 n

end RlpEncoder

def readIntegral (t : IntegralType) (v : ByteView) :
    Except DecodingError (BitVec (8 * t.sizeof) × ByteView) := do
  let h ← peekHeader v
  let payloadView := v.substr h.headerSizeBytes h.payloadSizeBytes
  if h.list then .error .kUnexpectedList
  else if h.payloadSizeBytes > 1 ∧ payloadView.bytes.headD 0 = 0 then .error .kLeadingZero
  else if h.payloadSizeBytes > t.sizeof then .error .kOverflow
  else if (h.payloadSizeBytes = 1 ∧ h.headerSizeBytes > 0) ∧
      (payloadView.bytes.headD 0).toNat < kRlpSingleByteThreshold then .error .kNonCanonicalSize
  else if v.length < sizeAdd h.headerSizeBytes h.payloadSizeBytes then .error .kInputTooShort
  else do
    let out ← Endian.fromBigCompact (8 * t.sizeof) payloadView.bytes
    return (out,v.removePrefix (sizeAdd h.headerSizeBytes h.payloadSizeBytes))

def readUint256 (v : ByteView) : Except DecodingError (BitVec 256 × ByteView) := do
  let h ← peekHeader v
  let payloadView := v.substr h.headerSizeBytes h.payloadSizeBytes
  if h.list then .error .kUnexpectedList
  else if h.payloadSizeBytes > 1 ∧ payloadView.bytes.headD 0 = 0 then .error .kLeadingZero
  else if h.payloadSizeBytes > 32 then .error .kOverflow
  else do
    let out ← Endian.fromBigCompactUint256 payloadView.bytes
    if (h.payloadSizeBytes = 1 ∧ out.toNat < kRlpSingleByteThreshold) ∧ h.headerSizeBytes > 0 then
      .error .kNonCanonicalSize
    else if v.length < sizeAdd h.headerSizeBytes h.payloadSizeBytes then .error .kInputTooShort
    else .ok (out,v.removePrefix (sizeAdd h.headerSizeBytes h.payloadSizeBytes))

def readUnsigned : (t : UnsignedType) → ByteView → Except DecodingError (BitVec (8 * t.sizeof) × ByteView)
  | .integral t,v => readIntegral t v
  | .uint256,v => readUint256 v

theorem shiftRight_bytes (val : BitVec w) (count : Nat) : (val >>> (8 * count)).toNat = val.toNat / 256 ^ count := by
  rw [BitVec.toNat_ushiftRight,Nat.shiftRight_eq_div_pow,Nat.pow_mul]

theorem significantBuf_full (val : BitVec w) (wide : 8 ≤ w) (low : 256 ^ top ≤ val.toNat) :
    significantBuf val top = BigEndian.fixed (top + 1) val.toNat := by
  induction top with
  | zero =>
    have last := ByteEncoding.byteAt_eq val 0 wide
    rw [ByteEncoding.byteAt,BitVec.ushiftRight_zero,Nat.pow_zero,Nat.div_one] at last
    rw [significantBuf,last]
    rfl
  | succ top ih =>
    have below := Nat.le_trans (Nat.pow_le_pow_right (by decide) (Nat.le_succ top)) low
    have shifted := shiftRight_bytes val (top + 1)
    have positive := Nat.div_pos low (by positivity)
    have nonzero : val >>> (8 * (top + 1)) ≠ 0#w := by
      intro zero
      rw [zero] at shifted
      simp at shifted
      omega
    have split := BigEndian.fixed_append 1 (top + 1) val.toNat
    rw [significantBuf,if_pos nonzero,ih below,shifted,Nat.add_comm (top + 1) 1,split]
    rfl

theorem significantBuf_eq (val : BitVec w) (wide : 8 ≤ w) (nonzero : val.toNat ≠ 0)
    (high : val.toNat < 256 ^ (top + 1)) : significantBuf val top = BigEndian.minimal val.toNat := by
  induction top with
  | zero =>
    have low : 256 ^ 0 ≤ val.toNat := Nat.one_le_iff_ne_zero.mpr nonzero
    rw [significantBuf_full val wide low,BigEndian.minimal,BigEndian.byteLength_eq low high]
  | succ top ih =>
    by_cases low : 256 ^ (top + 1) ≤ val.toNat
    · rw [significantBuf_full val wide low,BigEndian.minimal,BigEndian.byteLength_eq low high]
    · have zero : val >>> (8 * (top + 1)) = 0#w := by
        apply BitVec.eq_of_toNat_eq
        rw [shiftRight_bytes,Nat.div_eq_of_lt (by omega)]
        simp
      rw [significantBuf,if_neg (by simp [zero]),ih (by omega)]

theorem addMultibyte_eq (e : RlpEncoder) (val : BitVec w) (wide : 8 ≤ w) (nonzero : val.toNat ≠ 0)
    (high : val.toNat < 256 ^ (top + 1)) (short : top < 55) : e.addMultibyte top val = e.append (encodeScalar val.toNat) := by
  unfold RlpEncoder.addMultibyte
  by_cases small : val.toNat < 0x80
  · rw [if_pos small,encodeScalar_small nonzero small]
  · have width := BigEndian.byteLength_le high
    rw [if_neg small,encodeScalar_large (by omega),significantBuf_eq val wide nonzero high]
    rw [RlpEncoder.append_append,BigEndian.minimal_length,stringHeader,header_short (by omega)]

theorem addByte_eq (e : RlpEncoder) (nonzero : val.toNat ≠ 0) : e.addByte val = e.append (encodeScalar val.toNat) := by
  unfold RlpEncoder.addByte
  by_cases small : val.toNat < 0x80
  · rw [if_pos small,encodeScalar_small nonzero small]
  · have byte : val.toNat < 256 := val.isLt
    have digits := minimal_byte nonzero byte
    have width := BigEndian.minimal_length val.toNat
    rw [if_neg small,encodeScalar_large (by omega),← width,digits,RlpEncoder.append_append]
    rfl

theorem addIntegral_eq (e : RlpEncoder) (t : IntegralType) (n : BitVec (8 * t.sizeof)) :
    e.addIntegral t n = .ok (e.append (encodeScalar n.toNat)) := by
  unfold RlpEncoder.addIntegral
  split_ifs with zero
  · rw [zero,encodeScalar_zero]
  cases t with
  | uint8 => exact congrArg _ (addByte_eq e zero)
  | _ => exact congrArg _ (addMultibyte_eq e n (by decide) zero n.isLt (by decide))

theorem addUint256_eq (e : RlpEncoder) (n : BitVec 256) : e.addUint256 n = .ok (e.append (encodeScalar n.toNat)) := by
  unfold RlpEncoder.addUint256
  by_cases zero : n.toNat = 0
  · rw [if_pos zero,zero,encodeScalar_zero]
  rw [if_neg zero]
  by_cases small : n.toNat < 0x80
  · rw [if_pos small,encodeScalar_small zero small]
  · have width : BigEndian.byteLength n.toNat ≤ 32 := BigEndian.byteLength_le n.isLt
    rw [if_neg small,encodeScalar_large (by omega),Endian.toBigCompactUint256_eq]
    dsimp only
    rw [BigEndian.minimal_length,encodeHeaderBytes_eq false (by omega)]
    rfl

theorem addUnsigned_eq (e : RlpEncoder) (t : UnsignedType) (n : BitVec (8 * t.sizeof)) :
    e.addUnsigned t n = .ok (e.append (encodeScalar n.toNat)) := by
  cases t with
  | integral t => exact addIntegral_eq e t n
  | uint256 => exact addUint256_eq e n

def decodeScalar (sizeof : Nat) (payload : List UInt8) : Except DecodingError (BitVec (8 * sizeof)) :=
  if payload.length > 1 ∧ payload.headD 0 = 0 then .error .kLeadingZero
  else if payload.length > sizeof then .error .kOverflow
  else Endian.fromBigCompact (8 * sizeof) payload

theorem string_layout (spelled : v.bytes = encodeString payload ++ rest.bytes) :
    ∃ offset, peekHeader v = .ok ⟨false,payload.length,offset⟩ ∧ (v.substr offset payload.length).bytes = payload ∧
      v.removePrefix (sizeAdd offset payload.length) = rest ∧ ¬ v.length < sizeAdd offset payload.length ∧
      (payload.length = 1 → 0 < offset → 0x80 ≤ (payload.headD 0).toNat) := by
  obtain ⟨offset,announced,behind,headed⟩ := encodeString_announced ..
  rw [← spelled] at announced behind
  have room : offset + payload.length ≤ v.length := announced.room
  have fits := v.length_lt
  have total : sizeAdd offset payload.length = offset + payload.length := sizeAdd_small (by omega)
  refine ⟨offset,(peekHeader_exact v _).mpr announced,?_,?_,by omega,headed⟩
  · rw [ByteView.substr_bytes,behind,List.take_left]
  · apply ByteView.ext_bytes
    rw [total,ByteView.removePrefix_bytes,← List.drop_drop,behind,List.drop_left]

theorem readIntegral_string (t : IntegralType) (spelled : v.bytes = encodeString payload ++ rest.bytes) :
    readIntegral t v = (decodeScalar t.sizeof payload).map fun n => (n,rest) := by
  obtain ⟨offset,peeked,cut,left,room,headed⟩ := string_layout spelled
  have canonical : ¬ ((payload.length = 1 ∧ offset > 0) ∧ (payload.headD 0).toNat < 0x80) := by
    intro bad
    omega
  unfold readIntegral decodeScalar
  rw [peeked,ok_bind]
  dsimp only
  rw [cut,left,if_neg Bool.false_ne_true,if_neg canonical,if_neg room]
  split
  · rfl
  · split
    · rfl
    · cases Endian.fromBigCompact (8 * t.sizeof) payload with
      | error error => rfl
      | ok n => rfl

theorem single_value (read : Endian.fromBigCompact w payload = .ok n) (single : payload.length = 1) :
    n.toNat = (payload.headD 0).toNat := by
  obtain ⟨byte,rfl⟩ := List.length_eq_one_iff.mp single
  rcases Endian.fromBigCompact_sound read with shortest | ⟨zero,rfl⟩
  · have value := BigEndian.value_minimal n.toNat
    rw [← shortest,BigEndian.value_singleton] at value
    exact value.symm
  · cases zero
    simp

theorem readUint256_string (spelled : v.bytes = encodeString payload ++ rest.bytes) :
    readUint256 v = (decodeScalar 32 payload).map fun n => (n,rest) := by
  obtain ⟨offset,peeked,cut,left,room,headed⟩ := string_layout spelled
  unfold readUint256 decodeScalar
  rw [peeked,ok_bind]
  dsimp only
  rw [cut,left,if_neg Bool.false_ne_true,Endian.fromBigCompactUint256_eq]
  split
  · rfl
  split
  · rfl
  cases read : Endian.fromBigCompact 256 payload with
  | error error => rfl
  | ok n =>
    -- A one-byte payload behind a header is at least 0x80, and so is its value.
    have canonical : ¬ ((payload.length = 1 ∧ n.toNat < 0x80) ∧ offset > 0) := by
      rintro ⟨⟨single,small⟩,headed'⟩
      have large := headed single headed'
      rw [single_value read single] at small
      omega
    rw [ok_bind,if_neg canonical]
    rfl

theorem readUnsigned_string (t : UnsignedType) (spelled : v.bytes = encodeString payload ++ rest.bytes) :
    readUnsigned t v = (decodeScalar t.sizeof payload).map fun n => (n,rest) := by
  cases t with
  | integral t => exact readIntegral_string t spelled
  | uint256 => exact readUint256_string spelled

theorem peeked_string (peeked : peekHeader v = .ok h) (string : h.list = false) :
    ∃ payload, ∃ rest : ByteView, v.bytes = encodeString payload ++ rest.bytes := by
  obtain ⟨list,size,offset⟩ := h
  cases string
  have announced := (peekHeader_exact v _).mp peeked
  exact ⟨_,v.removePrefix (offset + size),announced.spelled⟩

theorem readUnsigned_peeks (t : UnsignedType) (v : ByteView) : ∃ next : Header → _,readUnsigned t v =
      peekHeader v >>= fun h => if h.list then .error .kUnexpectedList else next h := by
  cases t with
  | integral t => exact ⟨_,rfl⟩
  | uint256 => exact ⟨_,rfl⟩

theorem readUnsigned_needs_string (read : readUnsigned t v = .ok result) :
    ∃ payload, ∃ rest : ByteView, v.bytes = encodeString payload ++ rest.bytes := by
  obtain ⟨next,peeks⟩ := readUnsigned_peeks t v
  rw [peeks] at read
  obtain ⟨h,peeked,checked⟩ := bind_ok.mp read
  cases string : h.list with
  | true => rw [string] at checked; cases checked
  | false => exact peeked_string peeked string

theorem sizeof_bounds (t : UnsignedType) : 1 ≤ t.sizeof ∧ t.sizeof ≤ 32 := by
  cases t with
  | integral t => cases t <;> decide
  | uint256 => decide

section Scalar
variable (some : 1 ≤ sizeof) (few : sizeof ≤ 32)
include some few

theorem decodeScalar_exact (payload : List UInt8) (n : BitVec (8 * sizeof)) : decodeScalar sizeof payload = .ok n ↔
      payload = BigEndian.minimal n.toNat ∨ (payload = [0] ∧ n = 0#(8 * sizeof)) := by
  rw [← Endian.fromBigCompact_exact payload n (by omega)]
  unfold decodeScalar
  refine ⟨?_,?_⟩
  · intro decoded
    split at decoded
    · cases decoded
    · split at decoded
      · cases decoded
      · exact decoded
  · intro decoded
    rcases Endian.fromBigCompact_sound decoded with shortest | ⟨zero,_⟩
    · have width : payload.length ≤ sizeof := by
        rw [shortest,BigEndian.minimal_length]
        apply BigEndian.byteLength_le
        rw [show 256 = 2 ^ 8 from rfl,← Nat.pow_mul]
        exact n.isLt
      have leading : ¬ (payload.length > 1 ∧ payload.headD 0 = 0) := by
        intro bad
        cases spelled : payload with
        | nil => simp [spelled] at bad
        | cons first rest =>
          rw [spelled] at shortest
          exact BigEndian.minimal_leading shortest.symm (by simpa [spelled] using bad.2)
      rw [if_neg leading,if_neg (by omega)]
      exact decoded
    · rw [zero] at decoded ⊢
      rw [if_neg (by decide),if_neg (show ¬ [(0 : UInt8)].length > sizeof from Nat.not_lt.mpr some)]
      exact decoded

theorem decodeScalar_overflow (large : 2 ^ (8 * sizeof) ≤ BigEndian.value payload) :
    ∃ error, decodeScalar sizeof payload = .error error := by
  cases decoded : decodeScalar sizeof payload with
  | error error => exact ⟨error,rfl⟩
  | ok n =>
    rcases (decodeScalar_exact some few payload n).mp decoded with rfl | ⟨rfl,_⟩
    · rw [BigEndian.value_minimal] at large
      omega
    · have positive := Nat.two_pow_pos (8 * sizeof)
      exact absurd large (by simp)

end Scalar

theorem readUnsigned_exact (t : UnsignedType) (v : ByteView) (n : BitVec (8 * t.sizeof)) (rest : ByteView) :
    readUnsigned t v = .ok (n,rest) ↔
      v.bytes = encodeScalar n.toNat ++ rest.bytes ∨ (v.bytes = [0x00] ++ rest.bytes ∧ n = 0#(8 * t.sizeof)) := by
  obtain ⟨some,few⟩ := sizeof_bounds t
  have zero : encodeString [0x00] = [0x00] := encodeString_literal (by decide)
  refine ⟨?_,?_⟩
  · intro read
    obtain ⟨payload,left,spelled⟩ := readUnsigned_needs_string read
    rw [readUnsigned_string t spelled] at read
    cases decoded : decodeScalar t.sizeof payload with
    | error error => rw [decoded] at read; cases read
    | ok number =>
      rw [decoded] at read
      cases read
      rcases (decodeScalar_exact some few payload n).mp decoded with rfl | ⟨rfl,none⟩
      · exact .inl spelled
      · exact .inr ⟨spelled,none⟩
  · intro spelled
    rcases spelled with shortest | ⟨single,none⟩
    · rw [readUnsigned_string t shortest,(decodeScalar_exact some few _ n).mpr (.inl rfl)]
      rfl
    · rw [← zero] at single
      rw [readUnsigned_string t single,(decodeScalar_exact some few _ n).mpr (.inr ⟨rfl,none⟩)]
      rfl

-- Reading inverts writing in every width; what is read was written, or is the
-- lone zero byte; values and payloads outside the codec are refused.
theorem integer_codec (t : UnsignedType) :
    (∀ (e : RlpEncoder) (n : BitVec (8 * t.sizeof)), ∃ bytes, e.addUnsigned t n = .ok (e.append bytes) ∧
      ∀ v rest : ByteView, v.bytes = bytes ++ rest.bytes → readUnsigned t v = .ok (n,rest)) ∧
    (∀ (v : ByteView) (n : BitVec (8 * t.sizeof)) (rest : ByteView), readUnsigned t v = .ok (n,rest) →
      ∃ consumed, v.bytes = consumed ++ rest.bytes ∧
        ((∀ e : RlpEncoder, e.addUnsigned t n = .ok (e.append consumed)) ∨ (consumed = [0x00] ∧ n.toNat = 0))) ∧
    (∀ (v : ByteView) (payload : List UInt8) (rest : ByteView), v.bytes = encodeString payload ++ rest.bytes →
      (2 ^ (8 * t.sizeof) ≤ BigEndian.value payload → ∃ error, readUnsigned t v = .error error) ∧
      (1 < payload.length → payload.headD 0 = 0 → readUnsigned t v = .error .kLeadingZero)) := by
  obtain ⟨some,few⟩ := sizeof_bounds t
  refine ⟨?_,?_,?_⟩
  · intro e n
    refine ⟨encodeScalar n.toNat,addUnsigned_eq e t n,?_⟩
    intro v rest spelled
    exact (readUnsigned_exact t v n rest).mpr (.inl spelled)
  · intro v n rest read
    rcases (readUnsigned_exact t v n rest).mp read with shortest | ⟨single,zero⟩
    · exact ⟨_,shortest,.inl fun e => addUnsigned_eq e t n⟩
    · refine ⟨_,single,.inr ⟨rfl,?_⟩⟩
      rw [zero]
      simp
  · intro v payload rest spelled
    rw [readUnsigned_string t spelled]
    refine ⟨?_,?_⟩
    · intro large
      obtain ⟨error,refused⟩ := decodeScalar_overflow some few large
      exact ⟨error,by rw [refused]; rfl⟩
    · intro long zero
      rw [decodeScalar,if_pos ⟨long,zero⟩]
      rfl

end EvmRelay.Rlp
