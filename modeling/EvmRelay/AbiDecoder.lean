import EvmRelay.Endian
import EvmRelay.Objects

namespace EvmRelay.Abi
open ByteEncoding

inductive AbiParamKind where
  | kAddress | kUint | kInt | kBytes32 | kBool | kBytes | kString
  deriving DecidableEq

structure AbiParam where
  kind : AbiParamKind
  indexed : Bool
  deriving DecidableEq

-- std::vector<AbiParam>: an element takes 40 bytes, so 32 bytes of head for
-- each of them cannot wrap.
structure AbiParams where
  items : List AbiParam
  fits : 40 * items.length < sizeLimit

theorem three_params_fit : 40 * 3 < sizeLimit := by decide

inductive AbiValue where
  | address (value : Address)
  | uint256 (value : BitVec 256)
  | bytes32 (value : Hash256)
  | bool (value : Bool)
  | bytes (value : List UInt8)
  | string (value : List UInt8)
  deriving DecidableEq

abbrev kAbiWordSize : Nat := 32
abbrev kAbiAddressPadding : Nat := 12
abbrev kAbiBoolByteIndex : Nat := 31

def isDynamic : AbiParamKind → Bool
  | .kBytes => true
  | .kString => true
  | _ => false

def read64be (p : List UInt8) : BitVec 64 :=
  let byte (i : Nat) : BitVec 64 := BitVec.ofNat 64 (p.getD i 0).toNat
  byte 0 <<< 56 ||| byte 1 <<< 48 ||| byte 2 <<< 40 ||| byte 3 <<< 32 ||| byte 4 <<< 24 ||| byte 5 <<< 16 |||
    byte 6 <<< 8 ||| byte 7

def readUint256Be (data : Hash256) : BitVec 256 :=
  Intx.ofWords (read64be (data.toList.drop 24)) (read64be (data.toList.drop 16)) (read64be (data.toList.drop 8))
    (read64be (data.toList.drop 0))

def decodeAbiWord (word : Hash256) : AbiParamKind → Except DecodingError AbiValue
  | .kAddress => .ok (.address ⟨word.toList.drop kAbiAddressPadding,by
      rw [List.length_drop,word.toList_length]
      rfl⟩)
  | .kUint => .ok (.uint256 (readUint256Be word))
  | .kInt => .ok (.uint256 (readUint256Be word))
  | .kBytes32 => .ok (.bytes32 word)
  | .kBool => .ok (.bool (decide (word.toList.getD kAbiBoolByteIndex 0 ≠ 0)))
  | .kBytes => .ok (.bytes [])
  | .kString => .ok (.string [])

-- std::copy and the range constructors take what they are given: a range that
-- is not inside the buffer is no error code but a read of foreign memory.
def copyRange (data : ByteView) (start count : Nat) : Checked DecodingError (List UInt8) :=
  if start + count ≤ data.length then .ok ((data.bytes.drop start).take count) else .error .outOfBounds

def copyWord (data : ByteView) (start : Nat) : Checked DecodingError Hash256 :=
  if inside : start + kAbiWordSize ≤ data.length then
    .ok ⟨(data.bytes.drop start).take kAbiWordSize,by
      have room : start + 32 ≤ data.bytes.length := inside
      rw [List.length_take,List.length_drop]
      exact Nat.min_eq_left (show 32 ≤ data.bytes.length - start by omega)⟩
  else .error .outOfBounds

def decodeHead (data : ByteView) (headOffset : Nat) (kind : AbiParamKind) : Checked DecodingError AbiValue := do
  let word ← copyWord data headOffset
  match decodeAbiWord word kind with
  | .error error => .error (.returned error)
  | .ok value => .ok value

def decodeTail (data : ByteView) (headOffset : Nat) (kind : AbiParamKind) : Checked DecodingError AbiValue := do
  let offsetWord ← copyWord data headOffset
  let rawOffset := readUint256Be offsetWord
  if rawOffset.toNat > sizeLimit - 1 then .error (.returned .kOverflow)
  else
    let tailOffset := (rawOffset.setWidth 64).toNat
    if data.length < sizeAdd tailOffset kAbiWordSize then .error (.returned .kInputTooShort)
    else
      let lenWord ← copyWord data tailOffset
      let rawLen := readUint256Be lenWord
      if rawLen.toNat > sizeLimit - 1 then .error (.returned .kOverflow)
      else
        let contentLen := (rawLen.setWidth 64).toNat
        let contentOffset := sizeAdd tailOffset kAbiWordSize
        if data.length < sizeAdd contentOffset contentLen then .error (.returned .kInputTooShort)
        else
          let content ← copyRange data contentOffset contentLen
          return if kind = .kBytes then .bytes content else .string content

def decodeParam (data : ByteView) (i : Nat) (param : AbiParam) : Checked DecodingError AbiValue :=
  let headOffset := i * kAbiWordSize
  if ¬ isDynamic param.kind then decodeHead data headOffset param.kind else decodeTail data headOffset param.kind

def decodeParams (data : ByteView) : Nat → List AbiParam → Checked DecodingError (List AbiValue)
  | _,[] => .ok []
  | i,param :: rest => do
    let value ← decodeParam data i param
    let values ← decodeParams data (i + 1) rest
    return value :: values

def decodeLogData (data : ByteView) (params : AbiParams) : Checked DecodingError (List AbiValue) :=
  if params.items = [] then .ok []
  else
    let headSize := params.items.length * kAbiWordSize % sizeLimit
    if data.length < headSize then .error (.returned .kInputTooShort)
    else decodeParams data 0 params.items

def eventSignatureHash (keccak256 : List UInt8 → Hash256) (signature : List UInt8) : Hash256 := keccak256 signature

def decodeIndexedParam (topic : Hash256) (param : AbiParam) : Except DecodingError AbiValue :=
  decodeAbiWord topic param.kind

def decodeIndexedParams (topics : List Hash256) : Nat → List AbiParam → Except DecodingError (List AbiValue)
  | _,[] => .ok []
  | topicIndex,param :: rest =>
    if param.indexed then
      match topics[topicIndex]? with
      | none => .error .kInputTooShort
      | some topic => do
        let value ← decodeIndexedParam topic param
        let values ← decodeIndexedParams topics (topicIndex + 1) rest
        return value :: values
    else decodeIndexedParams topics topicIndex rest

def AbiParams.dataParams (params : AbiParams) : AbiParams where
  items := params.items.filter (fun param => !param.indexed)
  fits := by
    have shorter := List.length_filter_le (fun param => !param.indexed) params.items
    have fits := params.fits
    omega

def decodeLog (keccak256 : List UInt8 → Hash256) (log : LogEntry) (signature : List UInt8) (params : AbiParams) :
    Checked DecodingError (List AbiValue) :=
  match log.topics.items with
  | [] => .error (.returned .kInputTooShort)
  | topic0 :: _ =>
    if topic0 ≠ eventSignatureHash keccak256 signature then .error (.returned .kUnexpectedString)
    else
      match decodeIndexedParams log.topics.items 1 params.items with
      | .error error => .error (.returned error)
      | .ok results => do
        let dataVals ← decodeLogData (.ofVector log.data) params.dataParams
        return results ++ dataVals

theorem read64be_readBe :
    read64be (b0 :: b1 :: b2 :: b3 :: b4 :: b5 :: b6 :: b7 :: rest) = readBe 64 [b0,b1,b2,b3,b4,b5,b6,b7] := by
  simp [read64be,readBe,BitVec.shiftLeft_or_distrib,← BitVec.shiftLeft_add]

theorem read64be_eq (room : position + 8 ≤ bytes.length) :
    read64be (bytes.drop position) = Intx.beLoadWord bytes position := by
  have long : 8 ≤ (bytes.drop position).length := by rw [List.length_drop]; omega
  unfold Intx.beLoadWord
  generalize bytes.drop position = p at long
  match p,long with
  | b0 :: b1 :: b2 :: b3 :: b4 :: b5 :: b6 :: b7 :: rest,_ =>
    rw [read64be_readBe]
    apply BitVec.eq_of_toNat_eq
    have bound := BigEndian.value_lt [b0,b1,b2,b3,b4,b5,b6,b7]
    have width : 256 ^ [b0,b1,b2,b3,b4,b5,b6,b7].length = 2 ^ 64 := by simp
    rw [width] at bound
    rw [readBe_toNat 64 _ (Nat.le_of_eq width),BitVec.toNat_ofNat]
    exact (Nat.mod_eq_of_lt bound).symm

theorem readUint256Be_toNat : (readUint256Be word).toNat = BigEndian.value word.toList := by
  have size := word.toList_length
  rw [← Intx.beLoad_toNat size,readUint256Be,Intx.beLoad,read64be_eq (by omega),
    read64be_eq (by omega),read64be_eq (by omega),read64be_eq (by omega)]

def wordAt (data : ByteView) (position : Nat) : Nat :=
  BigEndian.value ((data.bytes.drop position).take 32)

theorem copyWord_inside (data : ByteView) (room : start + 32 ≤ data.length) :
    ∃ word, copyWord data start = .ok word ∧ (readUint256Be word).toNat = wordAt data start :=
  ⟨_,dif_pos room,readUint256Be_toNat⟩

theorem copyWord_outside (outside : ¬ start + 32 ≤ data.length) : copyWord data start = .error .outOfBounds := dif_neg outside

-- A dynamic parameter as the ABI means it: offset and length are numbers, and
-- the length word and the content are inside the data.
def Inside (data : ByteView) (head : Nat) : Prop :=
  wordAt data head + 32 ≤ data.length ∧
    wordAt data head + 32 + wordAt data (wordAt data head) ≤ data.length

def Wraps (data : ByteView) (head : Nat) : Prop :=
  (sizeLimit - 32 ≤ wordAt data head ∧ wordAt data head < sizeLimit) ∨
    (wordAt data head + 32 ≤ data.length ∧ wordAt data (wordAt data head) < sizeLimit ∧
      sizeLimit ≤ wordAt data head + 32 + wordAt data (wordAt data head))

theorem Wraps.not_inside (wraps : Wraps data head) : ¬ Inside data head := by
  intro inside
  have fits := data.length_lt
  obtain ⟨tail,content⟩ := inside
  rcases wraps with ⟨low,_⟩ | ⟨_,_,large⟩
  · omega
  · omega

theorem size_cast (n : BitVec 256) (small : ¬ n.toNat > sizeLimit - 1) : (n.setWidth 64).toNat = n.toNat := by
  rw [BitVec.toNat_setWidth,Nat.mod_eq_of_lt]
  unfold sizeLimit at small
  omega

def contentAt (data : ByteView) (head : Nat) : List UInt8 :=
  (data.bytes.drop (wordAt data head + 32)).take (wordAt data (wordAt data head))

theorem decodeTail_inside (kind : AbiParamKind) (room : head + 32 ≤ data.length) (inside : Inside data head) :
    decodeTail data head kind = .ok (if kind = .kBytes then .bytes (contentAt data head) else .string (contentAt data head)) := by
  obtain ⟨tail,content⟩ := inside
  obtain ⟨offsetWord,copied,offset⟩ := copyWord_inside data room
  obtain ⟨lenWord,lenCopied,len⟩ := copyWord_inside data tail
  have fits := data.length_lt
  unfold decodeTail copyRange
  rw [copied,ok_bind]
  simp only [offset]
  rw [if_neg (by omega),size_cast _ (by omega),offset,sizeAdd_small (show wordAt data head + 32 < sizeLimit by omega),if_neg (by omega),
    lenCopied,ok_bind]
  simp only [len]
  rw [if_neg (by omega),size_cast _ (by omega),len,sizeAdd_small (by omega),if_neg (by omega),if_pos content]
  rfl

theorem decodeTail_outcome (data : ByteView) (kind : AbiParamKind) (room : head + 32 ≤ data.length) :
    (Wraps data head ∧ decodeTail data head kind = .error .outOfBounds) ∨
    (Inside data head ∧ ∃ value, decodeTail data head kind = .ok value) ∨
    (¬ Wraps data head ∧ ¬ Inside data head ∧ ∃ error, decodeTail data head kind = .error (.returned error)) := by
  by_cases inside : Inside data head
  · exact .inr (.inl ⟨inside,_,decodeTail_inside kind room inside⟩)
  obtain ⟨offsetWord,copied,offset⟩ := copyWord_inside data room
  have fits := data.length_lt
  unfold Inside at inside
  unfold decodeTail Inside Wraps
  rw [copied,ok_bind]
  simp only [offset]
  by_cases wide : wordAt data head > sizeLimit - 1
  · rw [if_pos wide]
    exact .inr (.inr ⟨by omega,inside,_,rfl⟩)
  rw [if_neg wide,size_cast _ (by rwa [offset]),offset]
  by_cases exceeds : sizeLimit ≤ wordAt data head + 32
  · -- The wrapped sum is below 32, so the bounds check lets the offset through.
    have passed : ¬ data.length < sizeAdd (wordAt data head) 32 := by
      rw [sizeAdd_wraps (by omega) (by decide) exceeds]
      omega
    rw [if_neg passed,copyWord_outside (by omega)]
    exact .inl ⟨.inl ⟨by omega,by omega⟩,rfl⟩
  rw [sizeAdd_small (show wordAt data head + 32 < sizeLimit by omega)]
  by_cases short : data.length < wordAt data head + 32
  · rw [if_pos short]
    exact .inr (.inr ⟨by omega,inside,_,rfl⟩)
  obtain ⟨lenWord,lenCopied,len⟩ := copyWord_inside data (show wordAt data head + 32 ≤ data.length by omega)
  rw [if_neg short,lenCopied,ok_bind]
  simp only [len]
  by_cases long : wordAt data (wordAt data head) > sizeLimit - 1
  · rw [if_pos long]
    exact .inr (.inr ⟨by omega,inside,_,rfl⟩)
  rw [if_neg long,size_cast _ (by rwa [len]),len]
  unfold copyRange
  by_cases contentOver : sizeLimit ≤ wordAt data head + 32 + wordAt data (wordAt data head)
  · have passed : ¬ data.length < sizeAdd (wordAt data head + 32) (wordAt data (wordAt data head)) := by
      rw [sizeAdd_wraps (by omega) (by omega) contentOver]
      omega
    rw [if_neg passed,if_neg (by omega)]
    exact .inl ⟨.inr ⟨by omega,by omega,contentOver⟩,rfl⟩
  · rw [sizeAdd_small (Nat.lt_of_not_le contentOver),if_pos (by omega)]
    exact .inr (.inr ⟨by omega,inside,_,rfl⟩)

theorem decodeHead_ok (kind : AbiParamKind) (room : head + 32 ≤ data.length) :
    ∃ value, decodeHead data head kind = .ok value := by
  obtain ⟨word,copied,_⟩ := copyWord_inside data room
  rw [decodeHead,copied,ok_bind]
  cases kind <;> exact ⟨_,rfl⟩

theorem decodeParam_outcome (data : ByteView) (i : Nat) (param : AbiParam) (room : i * 32 + 32 ≤ data.length) :
    (isDynamic param.kind ∧ Wraps data (i * 32) ∧ decodeParam data i param = .error .outOfBounds) ∨
    ((isDynamic param.kind → Inside data (i * 32)) ∧ ∃ value, decodeParam data i param = .ok value) ∨
    (isDynamic param.kind ∧ ¬ Wraps data (i * 32) ∧ ¬ Inside data (i * 32) ∧
      ∃ error, decodeParam data i param = .error (.returned error)) := by
  unfold decodeParam
  by_cases dynamic : isDynamic param.kind
  · rw [if_neg (not_not_intro dynamic)]
    rcases decodeTail_outcome data param.kind room with ⟨wraps,ran⟩ | ⟨inside,ran⟩ | ⟨small,outside,ran⟩
    · exact .inl ⟨dynamic,wraps,ran⟩
    · exact .inr (.inl ⟨fun _ => inside,ran⟩)
    · exact .inr (.inr ⟨dynamic,small,outside,ran⟩)
  · rw [if_pos dynamic]
    exact .inr (.inl ⟨fun stated => absurd stated dynamic,decodeHead_ok param.kind room⟩)

def DynamicAt (params : List AbiParam) (k : Nat) : Prop := ∃ param, params[k]? = some param ∧ isDynamic param.kind

def Reaches (data : ByteView) (i : Nat) (params : List AbiParam) (k : Nat) : Prop :=
  DynamicAt params k ∧ ∀ j < k,DynamicAt params j → Inside data ((i + j) * 32)

theorem dynamicAt_head (dynamic : isDynamic param.kind) : DynamicAt (param :: rest) 0 := ⟨param,rfl,dynamic⟩

theorem dynamicAt_cons (rest : List AbiParam) : DynamicAt (param :: rest) (k + 1) ↔ DynamicAt rest k := by
  unfold DynamicAt
  rw [List.getElem?_cons_succ]

theorem reaches_head (dynamic : isDynamic param.kind) : Reaches data i (param :: rest) 0 :=
  ⟨dynamicAt_head dynamic,fun _ before => absurd before (Nat.not_lt_zero _)⟩

theorem slots_cons {slot : Nat → Prop} (first : isDynamic param.kind → slot (i * 32))
    (others : ∀ j < k,DynamicAt rest j → slot ((i + 1 + j) * 32)) :
    ∀ j < k + 1,DynamicAt (param :: rest) j → slot ((i + j) * 32) := by
  intro j before dynamic
  cases j with
  | zero =>
    obtain ⟨_,found,stated⟩ := dynamic
    cases found
    exact first stated
  | succ j =>
    rw [Nat.add_comm j 1,← Nat.add_assoc]
    exact others j (by omega) ((dynamicAt_cons ..).mp dynamic)

theorem Reaches.cons (first : isDynamic param.kind → Inside data (i * 32)) (reached : Reaches data (i + 1) rest k) :
    Reaches data i (param :: rest) (k + 1) :=
  ⟨(dynamicAt_cons ..).mpr reached.1,slots_cons first reached.2⟩

theorem decodeParams_outcome (data : ByteView) (i : Nat) (room : (i + params.length) * 32 ≤ data.length) :
    (∃ k,Reaches data i params k ∧ Wraps data ((i + k) * 32) ∧ decodeParams data i params = .error .outOfBounds) ∨
    ((∀ k,DynamicAt params k → Inside data ((i + k) * 32)) ∧ ∃ values, decodeParams data i params = .ok values) ∨
    (∃ k,Reaches data i params k ∧ ¬ Wraps data ((i + k) * 32) ∧ ¬ Inside data ((i + k) * 32) ∧
      ∃ error, decodeParams data i params = .error (.returned error)) := by
  induction params generalizing i with
  | nil => exact .inr (.inl ⟨fun k dynamic => by simp [DynamicAt] at dynamic,[],rfl⟩)
  | cons param rest ih =>
    rw [List.length_cons] at room
    unfold decodeParams
    rcases decodeParam_outcome data i param (by omega) with
      ⟨dynamic,wraps,ran⟩ | ⟨first,value,ran⟩ | ⟨dynamic,small,outside,error,ran⟩
    · exact .inl ⟨0,reaches_head dynamic,wraps,by rw [ran]; rfl⟩
    · have shift : ∀ k,i + (k + 1) = i + 1 + k := fun k => by omega
      rw [ran,ok_bind]
      rcases ih (i + 1) (by omega) with
        ⟨k,reached,wraps,rest⟩ | ⟨others,values,rest⟩ | ⟨k,reached,small,outside,error,rest⟩
      · exact .inl ⟨k + 1,reached.cons first,by rwa [shift],by rw [rest]; rfl⟩
      · refine .inr (.inl ⟨fun k => ?_,value :: values,by rw [rest]; rfl⟩)
        exact slots_cons first (fun j _ => others j) k (Nat.lt_succ_self k)
      · exact .inr (.inr ⟨k + 1,reached.cons first,by rwa [shift],by rwa [shift],error,by rw [rest]; rfl⟩)
    · exact .inr (.inr ⟨0,reaches_head dynamic,small,outside,error,by rw [ran]; rfl⟩)

-- Every byte range a call copies is inside the data, and a call that returns
-- no error found every dynamic parameter in range.
def CopiesInside (data : ByteView) (params : AbiParams) : Prop :=
  decodeLogData data params ≠ .error .outOfBounds ∧
    ((∀ error,decodeLogData data params ≠ .error (.returned error)) →
      ∀ k,DynamicAt params.items k → Inside data (k * 32))

theorem decodeLogData_short (short : data.length < params.items.length * 32) :
    decodeLogData data params = .error (.returned .kInputTooShort) := by
  have fits := params.fits
  have some : params.items ≠ [] := by
    intro none
    rw [none] at short
    exact absurd short (Nat.not_lt_zero _)
  rw [decodeLogData,if_neg some,Nat.mod_eq_of_lt (show params.items.length * 32 < sizeLimit by omega),if_pos short]

theorem decodeLogData_params (room : params.items.length * 32 ≤ data.length) :
    decodeLogData data params = decodeParams data 0 params.items := by
  have fits := params.fits
  rw [decodeLogData,Nat.mod_eq_of_lt (show params.items.length * 32 < sizeLimit by omega),
    if_neg (show ¬ data.length < params.items.length * 32 by omega)]
  split_ifs with none
  · rw [none]
    rfl
  · rfl

theorem log_data_copies_inside_iff (data : ByteView) (params : AbiParams) : CopiesInside data params ↔
      (params.items.length * 32 ≤ data.length → ∀ k,Reaches data 0 params.items k → ¬ Wraps data (k * 32)) := by
  unfold CopiesInside
  by_cases room : params.items.length * 32 ≤ data.length
  · have outcome := decodeParams_outcome data 0 (by rwa [Nat.zero_add])
    simp only [Nat.zero_add] at outcome
    rw [decodeLogData_params room]
    constructor
    · intro copies _ k reached wraps
      rcases copies with ⟨safe,inside⟩
      rcases outcome with ⟨_,_,_,ran⟩ | ⟨all,_⟩ | ⟨stop,reachedStop,small,outside,_⟩
      · exact safe ran
      · exact wraps.not_inside (all k reached.1)
      · -- The loop stops once, so it stopped at k.
        rcases Nat.lt_trichotomy k stop with before | same | after
        · have inRange := reachedStop.2 k before reached.1
          rw [Nat.zero_add] at inRange
          exact wraps.not_inside inRange
        · exact small (same ▸ wraps)
        · have inRange := reached.2 stop after reachedStop.1
          rw [Nat.zero_add] at inRange
          exact outside inRange
    · intro small
      rcases outcome with ⟨k,reached,wraps,_⟩ | ⟨all,values,ran⟩ | ⟨_,_,_,_,error,ran⟩
      · exact absurd wraps (small room k reached)
      · exact ⟨by simp [ran],fun _ => all⟩
      · exact ⟨by simp [ran],fun clean => absurd ran (clean error)⟩
  · have ran := decodeLogData_short (Nat.lt_of_not_le room)
    refine ⟨fun _ fits => absurd fits room,fun _ => ⟨by simp [ran],fun clean => absurd ran (clean _)⟩⟩

-- One dynamic parameter whose offset is 2^64 - 32: the check compares the data
-- with offset 0, and the length is read from the 32 bytes before the data.
def wrappingData : ByteView := ⟨List.replicate 24 0 ++ List.replicate 7 255 ++ [224],by decide⟩

def oneBytes : AbiParams := ⟨[{ kind := .kBytes, indexed := false }],by decide⟩

theorem wrapping_offset_copied : ¬ CopiesInside wrappingData oneBytes := by
  intro copies
  exact copies.1 (by decide +kernel)

end EvmRelay.Abi
