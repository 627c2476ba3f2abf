import EvmRelay.ByteEncoding
import EvmRelay.Cursor

namespace EvmRelay.ClaimPayload
open ByteEncoding

-- Vector sizes are part of the type, so every claim can be measured in uint64.
structure BridgeEventClaim where
  srcChainId : BitVec 64
  destChainId : BitVec 64
  blockNumber : BitVec 64
  blockHash : Hash256
  txHash : Hash256
  logIndex : BitVec 32
  bridgeContract : Address
  eventTopic0 : Hash256
  topics : StdVector Hash256
  data : StdVector UInt8
  sender : Address
  tokenIdOrNonce : BitVec 256
  amount : BitVec 256
  recipient : Address
  observedAt : BitVec 64
  finalityDepth : BitVec 64
  deriving DecidableEq

-- "GNUS_BRIDGE_EVENT_V1"
def kBridgeEventDomain : List UInt8 :=
  [0x47,0x4E,0x55,0x53,0x5F,0x42,0x52,0x49,0x44,0x47,0x45,0x5F,0x45,0x56,0x45,0x4E,0x54,0x5F,0x56,0x31]

def bridgeEventClaimPayload (claim : BridgeEventClaim) : List UInt8 :=
  let out := kBridgeEventDomain
  let out := appendU64Be out claim.srcChainId
  let out := appendU64Be out claim.destChainId
  let out := appendArray out claim.bridgeContract
  let out := appendU64Be out claim.blockNumber
  let out := appendArray out claim.blockHash
  let out := appendArray out claim.txHash
  let out := appendU32Be out claim.logIndex
  let out := appendArray out claim.eventTopic0
  let out := appendLengthPrefixedArrays out claim.topics
  let out := appendLengthPrefixedBytes out claim.data
  let out := appendArray out claim.sender
  let out := appendUint256Be out claim.tokenIdOrNonce
  let out := appendUint256Be out claim.amount
  let out := appendArray out claim.recipient
  let out := appendU64Be out claim.observedAt
  appendU64Be out claim.finalityDepth

abbrev PayloadReader := Cursor UInt8

def readDomain (reader : PayloadReader) : Option (Unit × PayloadReader) := do
  let (actual,reader) ← reader.take kBridgeEventDomain.length
  if actual.toList ≠ kBridgeEventDomain then none else some ((),reader)

-- read_u32, read_u64 and read_uint256 differ in the width only.
def readUnsigned (count : Nat) (reader : PayloadReader) : Option (BitVec (8 * count) × PayloadReader) := do
  let (bytes,reader) ← reader.take count
  return (readBe (8 * count) bytes.toList,reader)

def readU32 (reader : PayloadReader) : Option (BitVec 32 × PayloadReader) := readUnsigned 4 reader
def readU64 (reader : PayloadReader) : Option (BitVec 64 × PayloadReader) := readUnsigned 8 reader
def readUint256 (reader : PayloadReader) : Option (BitVec 256 × PayloadReader) := readUnsigned 32 reader

def readArray (n : Nat) (reader : PayloadReader) : Option (FixedBytes n × PayloadReader) := reader.take n

def readLengthPrefixedArrays (n : Nat) (reader : PayloadReader) :
    Option (StdVector (FixedBytes n) × PayloadReader) := do
  let (count,reader) ← readU64 reader
  if reader.remaining / n < count.toNat then none
  else
    let (arrays,reader) ← Cursor.many (readArray n) count.toNat reader
    return (⟨arrays.toList,by rw [List.Vector.toList_length]; exact count.isLt⟩,reader)

def readLengthPrefixedBytes (reader : PayloadReader) : Option (StdVector UInt8 × PayloadReader) := do
  let (length,reader) ← readU64 reader
  if reader.remaining < length.toNat then none
  else
    let (bytes,reader) ← reader.take length.toNat
    return (⟨bytes.toList,by rw [List.Vector.toList_length]; exact length.isLt⟩,reader)

def decodeBridgeEventClaimPayload (payload : List UInt8) : Option BridgeEventClaim := do
  let reader : PayloadReader := Cursor.start payload
  let (_,reader) ← readDomain reader
  let (srcChainId,reader) ← readU64 reader
  let (destChainId,reader) ← readU64 reader
  let (bridgeContract,reader) ← readArray 20 reader
  let (blockNumber,reader) ← readU64 reader
  let (blockHash,reader) ← readArray 32 reader
  let (txHash,reader) ← readArray 32 reader
  let (logIndex,reader) ← readU32 reader
  let (eventTopic0,reader) ← readArray 32 reader
  let (topics,reader) ← readLengthPrefixedArrays 32 reader
  let (data,reader) ← readLengthPrefixedBytes reader
  let (sender,reader) ← readArray 20 reader
  let (tokenIdOrNonce,reader) ← readUint256 reader
  let (amount,reader) ← readUint256 reader
  let (recipient,reader) ← readArray 20 reader
  let (observedAt,reader) ← readU64 reader
  let (finalityDepth,reader) ← readU64 reader
  if reader.finished then
    some ⟨srcChainId,destChainId,blockNumber,blockHash,txHash,logIndex,bridgeContract,eventTopic0,
      topics,data,sender,tokenIdOrNonce,amount,recipient,observedAt,finalityDepth⟩
  else none

def wordBytes (count : Nat) (word : BitVec w) : List UInt8 := BigEndian.fixed count word.toNat

def arraysBytes (arrays : StdVector (FixedBytes n)) : List UInt8 :=
  wordBytes 8 (BitVec.ofNat 64 arrays.items.length) ++ arrays.items.flatMap List.Vector.toList

def vectorBytes (bytes : StdVector UInt8) : List UInt8 :=
  wordBytes 8 (BitVec.ofNat 64 bytes.items.length) ++ bytes.items

theorem readDomain_exact : Cursor.Exact (fun _ : Unit => kBridgeEventDomain) readDomain := by
  intro c _ d
  simp only [readDomain,Option.bind_eq_bind,(Cursor.take_exact _).bind_some]
  constructor
  · rintro ⟨actual,e,split,checked⟩
    split_ifs at checked with same
    cases checked
    rwa [not_not.mp same] at split
  · intro split
    exact ⟨⟨kBridgeEventDomain,rfl⟩,d,split,by simp⟩

theorem readUnsigned_exact (count : Nat) : Cursor.Exact (wordBytes count) (readUnsigned count) := by
  intro c word d
  simp only [readUnsigned,Option.bind_eq_bind,(Cursor.take_exact _).bind_some,Option.pure_def,
    Option.some.injEq,Prod.mk.injEq]
  have wide : 256 ^ count = 2 ^ (8 * count) := by rw [Nat.pow_mul]
  constructor
  · rintro ⟨bytes,e,split,rfl,rfl⟩
    have size : bytes.toList.length = count := bytes.2
    have total := readBe_toNat (8 * count) bytes.toList (by rw [size,wide])
    have spelled := BigEndian.fixed_value bytes.toList
    rw [size] at spelled
    rwa [wordBytes,total,spelled]
  · intro split
    refine ⟨⟨wordBytes count word,BigEndian.fixed_length _ _⟩,d,split,?_,rfl⟩
    apply BitVec.eq_of_toNat_eq
    have small : word.toNat < 256 ^ count := by rw [wide]; exact word.isLt
    change (readBe (8 * count) (wordBytes count word)).toNat = word.toNat
    rw [readBe_toNat _ _ (by rw [wordBytes,BigEndian.fixed_length,wide]),wordBytes,
      BigEndian.value_fixed_of_lt small]

theorem readU64_exact : Cursor.Exact (wordBytes 8) readU64 := readUnsigned_exact 8

theorem readU32_exact : Cursor.Exact (wordBytes 4) readU32 := readUnsigned_exact 4
theorem readUint256_exact : Cursor.Exact (wordBytes 32) readUint256 := readUnsigned_exact 32

theorem readArray_exact (n : Nat) : Cursor.Exact List.Vector.toList (readArray n) := Cursor.take_exact n

theorem length_word (items : List α) (fits : items.length < sizeLimit) :
    (BitVec.ofNat 64 items.length).toNat = items.length := Nat.mod_eq_of_lt fits

theorem counted_word (items : List.Vector α count.toNat) : BitVec.ofNat 64 items.toList.length = count := by
  rw [List.Vector.toList_length,BitVec.ofNat_toNat,BitVec.setWidth_eq]

theorem arrays_size (arrays : List (FixedBytes n)) : (arrays.flatMap List.Vector.toList).length = arrays.length * n := by
  induction arrays with
  | nil => simp
  | cons array rest ih => simp [ih,Nat.succ_mul,Nat.add_comm]

theorem readLengthPrefixedArrays_exact (n : Nat) (positive : 0 < n) :
    Cursor.Exact arraysBytes (readLengthPrefixedArrays n) := by
  intro c arrays d
  simp only [readLengthPrefixedArrays,Option.bind_eq_bind,readU64_exact.bind_some]
  constructor
  · rintro ⟨count,e,first,checked⟩
    split_ifs at checked
    simp only [(Cursor.many_exact (readArray_exact n)).bind_some,Option.pure_def,
      Option.some.injEq,Prod.mk.injEq] at checked
    obtain ⟨read,f,second,rfl,rfl⟩ := checked
    refine Cursor.splits_append.mpr ⟨e,?_,second⟩
    rwa [counted_word]
  · intro split
    obtain ⟨e,first,second⟩ := Cursor.splits_append.mp split
    have size := length_word arrays.items arrays.fits
    refine ⟨_,e,first,?_⟩
    have room := second.remaining
    rw [arrays_size] at room
    have enough : ¬ e.remaining / n < (BitVec.ofNat 64 arrays.items.length).toNat := by
      rw [size,Nat.not_lt,Nat.le_div_iff_mul_le positive]
      omega
    rw [if_neg enough]
    simp only [(Cursor.many_exact (readArray_exact n)).bind_some,Option.pure_def,
      Option.some.injEq,Prod.mk.injEq]
    exact ⟨⟨arrays.items,size.symm⟩,d,second,rfl,rfl⟩

theorem readLengthPrefixedBytes_exact : Cursor.Exact vectorBytes readLengthPrefixedBytes := by
  intro c bytes d
  simp only [readLengthPrefixedBytes,Option.bind_eq_bind,readU64_exact.bind_some]
  constructor
  · rintro ⟨length,e,first,checked⟩
    split_ifs at checked
    simp only [(Cursor.take_exact _).bind_some,Option.pure_def,Option.some.injEq,Prod.mk.injEq] at checked
    obtain ⟨read,f,second,rfl,rfl⟩ := checked
    refine Cursor.splits_append.mpr ⟨e,?_,second⟩
    rwa [counted_word]
  · intro split
    obtain ⟨e,first,second⟩ := Cursor.splits_append.mp split
    have size := length_word bytes.items bytes.fits
    refine ⟨_,e,first,?_⟩
    have enough : ¬ e.remaining < (BitVec.ofNat 64 bytes.items.length).toNat := by
      have room := second.remaining
      omega
    rw [if_neg enough]
    simp only [(Cursor.take_exact _).bind_some,Option.pure_def,Option.some.injEq,Prod.mk.injEq]
    exact ⟨⟨bytes.items,size.symm⟩,d,second,rfl,rfl⟩

theorem payload_fields (claim : BridgeEventClaim) : bridgeEventClaimPayload claim =
      kBridgeEventDomain ++ (wordBytes 8 claim.srcChainId ++ (wordBytes 8 claim.destChainId ++
      (claim.bridgeContract.toList ++ (wordBytes 8 claim.blockNumber ++ (claim.blockHash.toList ++
      (claim.txHash.toList ++ (wordBytes 4 claim.logIndex ++ (claim.eventTopic0.toList ++
      (arraysBytes claim.topics ++ (vectorBytes claim.data ++ (claim.sender.toList ++
      (wordBytes 32 claim.tokenIdOrNonce ++ (wordBytes 32 claim.amount ++ (claim.recipient.toList ++
      (wordBytes 8 claim.observedAt ++ wordBytes 8 claim.finalityDepth))))))))))))))) := by
  simp only [bridgeEventClaimPayload,appendLengthPrefixedArrays_eq,appendLengthPrefixedBytes,
    appendU64Be,appendU32Be,appendUint256Be,appendArray,arraysBytes,vectorBytes,wordBytes,
    appendBe_eq _ (by decide : 8 ≤ 32),appendBe_eq _ (by decide : 8 ≤ 64),
    appendBe_eq _ (by decide : 8 ≤ 256),List.append_assoc]

-- Both sides cut the payload at the same seventeen places.
theorem decode_iff : decodeBridgeEventClaimPayload payload = some claim ↔ payload = bridgeEventClaimPayload claim := by
  rw [payload_fields,← Cursor.start_splits_finished]
  simp only [Cursor.splits_append]
  refine (readDomain_exact.bind_congr fun _ _ => readU64_exact.bind_congr fun _ _ => readU64_exact.bind_congr fun _ _ =>
    (readArray_exact _).bind_congr fun _ _ => readU64_exact.bind_congr fun _ _ => (readArray_exact _).bind_congr fun _ _ =>
    (readArray_exact _).bind_congr fun _ _ => readU32_exact.bind_congr fun _ _ => (readArray_exact _).bind_congr fun _ _ =>
    (readLengthPrefixedArrays_exact 32 (by decide)).bind_congr fun _ _ => readLengthPrefixedBytes_exact.bind_congr fun _ _ =>
    (readArray_exact _).bind_congr fun _ _ => readUint256_exact.bind_congr fun _ _ => readUint256_exact.bind_congr fun _ _ =>
    (readArray_exact _).bind_congr fun _ _ => readU64_exact.bind_congr fun _ _ => readU64_exact.bind_congr fun _ _ =>
    Iff.rfl).trans ⟨?_,?_⟩
  · rintro ⟨_,_,s0,_,_,s1,_,_,s2,_,_,s3,_,_,s4,_,_,s5,_,_,s6,_,_,s7,_,_,s8,_,_,s9,_,_,s10,_,_,s11,_,_,s12,_,_,s13,_,_,s14,
      _,_,s15,_,_,s16,decoded⟩
    dsimp only at decoded
    split_ifs at decoded with done
    cases decoded
    exact ⟨_,⟨_,s0,_,s1,_,s2,_,s3,_,s4,_,s5,_,s6,_,s7,_,s8,_,s9,_,s10,_,s11,_,s12,_,s13,_,s14,_,s15,s16⟩,done⟩
  · rintro ⟨_,⟨_,s0,_,s1,_,s2,_,s3,_,s4,_,s5,_,s6,_,s7,_,s8,_,s9,_,s10,_,s11,_,s12,_,s13,_,s14,_,s15,s16⟩,done⟩
    exact ⟨(),_,s0,_,_,s1,_,_,s2,_,_,s3,_,_,s4,_,_,s5,_,_,s6,_,_,s7,_,_,s8,_,_,s9,_,_,s10,_,_,s11,_,_,s12,_,_,s13,_,_,s14,
      _,_,s15,_,_,s16,if_pos done⟩

theorem payload_decodes (claim : BridgeEventClaim) :
    decodeBridgeEventClaimPayload (bridgeEventClaimPayload claim) = some claim := decode_iff.mpr rfl

theorem decoded_payload
    (decoded : decodeBridgeEventClaimPayload payload = some claim) : bridgeEventClaimPayload claim = payload :=
  (decode_iff.mp decoded).symm

theorem claim_payload_bijective : (∀ claim, decodeBridgeEventClaimPayload (bridgeEventClaimPayload claim) = some claim) ∧
    (∀ payload claim, decodeBridgeEventClaimPayload payload = some claim ↔ bridgeEventClaimPayload claim = payload) ∧
    Function.Injective bridgeEventClaimPayload := by
  refine ⟨payload_decodes,?_,?_⟩
  · intro payload claim
    refine ⟨decoded_payload,?_⟩
    intro spelled
    rw [← spelled]
    exact payload_decodes claim
  · intro left right same
    have decoded := payload_decodes left
    rw [same,payload_decodes] at decoded
    exact (Option.some.inj decoded).symm

end EvmRelay.ClaimPayload
