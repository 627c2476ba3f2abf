import EvmRelay.AbiDecoder
import EvmRelay.HeadTail

namespace EvmRelay.Abi
open HeadTail

-- The contract ABI as its specification writes it: every value is a word of 32
-- bytes, or a position, and behind all words its length and its padded bytes.
def abiTail (content : List UInt8) : List UInt8 :=
  BigEndian.fixed 32 content.length ++ (content ++ List.replicate ((32 - content.length % 32) % 32) 0)

def abiPart : AbiValue → Slot UInt8
  | .address value => .inPlace (List.replicate 12 0 ++ value.toList)
  | .uint256 value => .inPlace (BigEndian.fixed 32 value.toNat)
  | .bytes32 value => .inPlace value.toList
  | .bool value => .inPlace (BigEndian.fixed 32 value.toNat)
  | .bytes content => .behind (abiTail content)
  | .string content => .behind (abiTail content)

def abiEncode (values : List AbiValue) : List UInt8 := layout (BigEndian.fixed 32) 32 (values.map abiPart)

inductive HasKind : AbiParamKind → AbiValue → Prop where
  | address (value : Address) : HasKind .kAddress (.address value)
  | uint (value : BitVec 256) : HasKind .kUint (.uint256 value)
  | int (value : BitVec 256) : HasKind .kInt (.uint256 value)
  | bytes32 (value : Hash256) : HasKind .kBytes32 (.bytes32 value)
  | bool (value : Bool) : HasKind .kBool (.bool value)
  | bytes (content : List UInt8) : HasKind .kBytes (.bytes content)
  | string (content : List UInt8) : HasKind .kString (.string content)

abbrev Matching (params : List AbiParam) (values : List AbiValue) : Prop :=
  List.Forall₂ (fun param value => HasKind param.kind value) params values

theorem inPlace_length (part : abiPart value = .inPlace word) : word.length = 32 := by
  cases value with
  | address value => rw [← Slot.inPlace.inj part,List.length_append,List.length_replicate,value.toList_length]
  | bytes32 value => rw [← Slot.inPlace.inj part,value.toList_length]
  | bytes content => cases part
  | string content => cases part
  | _ => rw [← Slot.inPlace.inj part,BigEndian.fixed_length]

theorem parts_uniform (values : List AbiValue) : Uniform (BigEndian.fixed 32) 32 (values.map abiPart) := by
  refine ⟨BigEndian.fixed_length 32,?_⟩
  intro word member
  obtain ⟨value,_,part⟩ := List.mem_map.mp member
  exact inPlace_length part

theorem number_read (spelled : word.toList = BigEndian.fixed 32 n.toNat) : readUint256Be word = n := by
  apply BitVec.eq_of_toNat_eq
  rw [readUint256Be_toNat,spelled]
  exact BigEndian.value_fixed_of_lt n.isLt

theorem decodeAbiWord_inPlace (kind : HasKind param value) (part : abiPart value = .inPlace word.toList) :
    isDynamic param = false ∧ decodeAbiWord word param = .ok value := by
  cases kind with
  | address address =>
    have spelled := Slot.inPlace.inj part
    refine ⟨rfl,?_⟩
    rw [decodeAbiWord]
    simp only [← spelled]
    rfl
  | bytes32 hash =>
    have same : hash = word := List.Vector.eq hash word (Slot.inPlace.inj part)
    exact ⟨rfl,by rw [decodeAbiWord,same]⟩
  | bool flag =>
    have spelled := Slot.inPlace.inj part
    refine ⟨rfl,?_⟩
    rw [decodeAbiWord,← spelled]
    cases flag <;> rfl
  | bytes content => cases part
  | string content => cases part
  | _ => exact ⟨rfl,by rw [decodeAbiWord,number_read (Slot.inPlace.inj part).symm]⟩

section params
variable {data : ByteView}

theorem spelled_room (spelled : data.bytes.drop start = front ++ more) (some : 0 < front.length) :
    start + front.length ≤ data.length := by
  have room := congrArg List.length spelled
  rw [List.length_drop,List.length_append] at room
  unfold ByteView.length
  omega

theorem copyWord_spelled (spelled : data.bytes.drop start = word.toList ++ more) : copyWord data start = .ok word := by
  have width := word.toList_length
  have room := spelled_room spelled (by omega)
  rw [copyWord,dif_pos (show start + 32 ≤ data.length by omega)]
  congr 1
  apply List.Vector.eq
  show (data.bytes.drop start).take 32 = word.toList
  rw [spelled]
  exact List.take_left' width

theorem wordAt_spelled (spelled : data.bytes.drop position = BigEndian.fixed 32 n ++ more) (small : n < sizeLimit) :
    wordAt data position = n := by
  rw [wordAt,spelled,List.take_left' (BigEndian.fixed_length _ _)]
  exact BigEndian.value_fixed_of_lt (Nat.lt_trans small (by decide))

theorem contentAt_spelled (slot : data.bytes.drop head = BigEndian.fixed 32 offset ++ more)
    (tail : data.bytes.drop offset = abiTail content ++ rest) : Inside data head ∧ contentAt data head = content := by
  have fits := data.length_lt
  have length : (abiTail content).length = 32 + (content.length + (32 - content.length % 32) % 32) := by simp [abiTail]
  have room := spelled_room tail (by omega)
  have first := wordAt_spelled slot (by omega)
  rw [abiTail,List.append_assoc,List.append_assoc] at tail
  have second := wordAt_spelled tail (by omega)
  unfold Inside contentAt
  rw [first,second]
  refine ⟨⟨by omega,by omega⟩,?_⟩
  rw [← List.drop_drop,tail,List.drop_left' (BigEndian.fixed_length _ _),List.take_left]

theorem decodeParam_placed (kind : HasKind param.kind value)
    (placed : Placed (BigEndian.fixed 32) 32 data.bytes i offset (abiPart value :: rest)) :
    decodeParam data i param = .ok value ∧ ∃ next,Placed (BigEndian.fixed 32) 32 data.bytes (i + 1) next rest := by
  unfold decodeParam
  cases part : abiPart value with
  | inPlace word =>
    rw [part] at placed
    obtain ⟨hash,rfl⟩ : ∃ hash : Hash256,hash.toList = word := ⟨⟨word,inPlace_length part⟩,rfl⟩
    obtain ⟨⟨more,spelled⟩,next⟩ := placed.word hash.toList_length
    obtain ⟨static,decoded⟩ := decodeAbiWord_inPlace kind part
    refine ⟨?_,offset,next⟩
    rw [if_pos (by simp [static]),decodeHead,copyWord_spelled spelled,ok_bind,decoded]
  | behind tail =>
    rw [part] at placed
    obtain ⟨⟨more,slot⟩,⟨rest,behind⟩,next⟩ := placed.tail (BigEndian.fixed_length _ _)
    refine ⟨?_,_,next⟩
    have room := spelled_room slot (by rw [BigEndian.fixed_length]; decide)
    rw [BigEndian.fixed_length] at room
    generalize named : param.kind = found at kind
    cases kind with
    | bytes content =>
      rw [← Slot.behind.inj part] at behind
      obtain ⟨inside,same⟩ := contentAt_spelled slot behind
      rw [if_neg (by simp [isDynamic]),decodeTail_inside _ room inside,same,if_pos rfl]
    | string content =>
      rw [← Slot.behind.inj part] at behind
      obtain ⟨inside,same⟩ := contentAt_spelled slot behind
      rw [if_neg (by simp [isDynamic]),decodeTail_inside _ room inside,same,if_neg (by decide)]
    | _ => simp [abiPart] at part

theorem decodeParams_placed (matched : Matching params values)
    (placed : Placed (BigEndian.fixed 32) 32 data.bytes i offset (values.map abiPart)) : decodeParams data i params = .ok values := by
  induction matched generalizing i offset with
  | nil => rfl
  | cons kind _ ih =>
    obtain ⟨first,next,others⟩ := decodeParam_placed kind placed
    rw [decodeParams,first,ok_bind,ih others]
    rfl

theorem decodeLogData_encoded (matched : Matching params.items values) (encoded : data.bytes = abiEncode values) :
    decodeLogData data params = .ok values := by
  have uniform := parts_uniform values
  have placed : Placed (BigEndian.fixed 32) 32 data.bytes 0 ((values.map abiPart).length * 32) (values.map abiPart) := by
    rw [encoded]
    exact Placed.start uniform
  have room : params.items.length * 32 ≤ data.length := by
    have heads := heads_length uniform ((values.map abiPart).length * 32)
    rw [List.length_map] at heads
    rw [ByteView.length,encoded,abiEncode,layout,List.length_append,List.length_map,heads,matched.length_eq]
    exact Nat.le_add_right _ _
  rw [decodeLogData_params room,decodeParams_placed matched placed]

end params

def indexedValues (params : List AbiParam) (values : List AbiValue) : List AbiValue :=
  ((params.zip values).filter fun pair => pair.1.indexed).map Prod.snd

def dataValues (params : List AbiParam) (values : List AbiValue) : List AbiValue :=
  ((params.zip values).filter fun pair => !pair.1.indexed).map Prod.snd

theorem indexedValues_cons : indexedValues (param :: params) (value :: values) =
      if param.indexed then value :: indexedValues params values else indexedValues params values := by
  unfold indexedValues
  cases indexed : param.indexed <;> simp [indexed]

theorem dataValues_cons : dataValues (param :: params) (value :: values) =
      if param.indexed then dataValues params values else value :: dataValues params values := by
  unfold dataValues
  cases indexed : param.indexed <;> simp [indexed]

theorem dataValues_match (matched : Matching params values) :
    Matching (params.filter fun param => !param.indexed) (dataValues params values) := by
  induction matched with
  | nil => exact .nil
  | @cons param value params values kind _ ih =>
    rw [dataValues_cons]
    cases indexed : param.indexed with
    | true => rwa [List.filter_cons_of_neg (by simp [indexed])]
    | false =>
      rw [List.filter_cons_of_pos (by simp [indexed])]
      exact .cons kind ih

theorem decodeIndexedParams_encoded (matched : Matching params values)
    (encoded : List.Forall₂ (fun value topic => abiPart value = .inPlace topic.toList) (indexedValues params values) (topics.drop k)) :
    decodeIndexedParams topics k params = .ok (indexedValues params values) := by
  induction matched generalizing k with
  | nil => rfl
  | @cons param value params values kind _ ih =>
    rw [decodeIndexedParams]
    rw [indexedValues_cons] at encoded ⊢
    cases indexed : param.indexed with
    | false =>
      rw [indexed] at encoded
      exact ih encoded
    | true =>
      rw [indexed] at encoded
      cases spelled : topics.drop k with
      | nil =>
        rw [spelled] at encoded
        cases encoded
      | cons topic others =>
        rw [spelled] at encoded
        obtain _ | ⟨part,rest⟩ := encoded
        have found : topics[k]? = some topic := by
          have first := congrArg (fun list => list[0]?) spelled
          simpa using first
        have next : topics.drop (k + 1) = others := by
          have behind := congrArg (List.drop 1) spelled
          simpa [List.drop_drop] using behind
        rw [if_pos rfl,found]
        dsimp only
        rw [decodeIndexedParam,(decodeAbiWord_inPlace kind part).2,ok_bind,ih (next ▸ rest)]
        rfl

theorem decodeLog_encoded (matched : Matching params.items values)
    (indexed : List.Forall₂ (fun value topic => abiPart value = .inPlace topic.toList) (indexedValues params.items values) topics)
    (signed : log.topics.items = keccak256 signature :: topics)
    (encoded : log.data.items = abiEncode (dataValues params.items values)) :
    decodeLog keccak256 log signature params = .ok (indexedValues params.items values ++ dataValues params.items values) := by
  have first : decodeIndexedParams log.topics.items 1 params.items = .ok (indexedValues params.items values) := by
    apply decodeIndexedParams_encoded matched
    rw [signed]
    exact indexed
  have second : decodeLogData (.ofVector log.data) params.dataParams = .ok (dataValues params.items values) :=
    decodeLogData_encoded (dataValues_match matched) encoded
  unfold decodeLog
  rw [first,second,signed]
  simp [eventSignatureHash]

theorem decoding_inverts_encoding :
    (∀ (params : AbiParams) (values : List AbiValue) (data : ByteView),Matching params.items values → data.bytes = abiEncode values →
      decodeLogData data params = .ok values) ∧
    (∀ (keccak256 : List UInt8 → Hash256) (signature : List UInt8) (params : AbiParams) (values : List AbiValue) (log : LogEntry)
      (topics : List Hash256),Matching params.items values →
      List.Forall₂ (fun value topic => abiPart value = .inPlace topic.toList) (indexedValues params.items values) topics →
      log.topics.items = keccak256 signature :: topics → log.data.items = abiEncode (dataValues params.items values) →
      decodeLog keccak256 log signature params = .ok (indexedValues params.items values ++ dataValues params.items values)) :=
  ⟨fun _ _ _ => decodeLogData_encoded,fun _ _ _ _ _ _ => decodeLog_encoded⟩

def noteParams : AbiParams := ⟨[⟨.kString,false⟩,⟨.kUint,false⟩,⟨.kBytes,false⟩],three_params_fit⟩

def noteValues : List AbiValue := [.string [0x61,0x62,0x63],.uint256 5,.bytes [1,2]]

def noteData : ByteView := ⟨abiEncode noteValues,by decide +kernel⟩

def approvalTopic : Hash256 :=
  .ofNat 32 0x8c5be1e5ebec7d5bd14f71427d1e84f3dd0314c0f7b2291e5b200ac8c7c3b925

def approvalSignature : List UInt8 := ascii "Approval(address,address,uint256)"

def approvalKeccak (bytes : List UInt8) : Hash256 := if bytes = approvalSignature then approvalTopic else FixedBytes.zeros 32

def approvalParams : AbiParams := ⟨[⟨.kAddress,true⟩,⟨.kAddress,true⟩,⟨.kUint,false⟩],three_params_fit⟩

def approvalValues : List AbiValue := [.address (FixedBytes.zeros 20),.address (FixedBytes.zeros 20),.uint256 5]

def approvalLog : LogEntry where
  address := FixedBytes.zeros 20
  topics := ⟨[approvalTopic,FixedBytes.zeros 32,FixedBytes.zeros 32],by decide⟩
  data := ⟨abiEncode [.uint256 5],by decide +kernel⟩

theorem approval_decoded : decodeLogData noteData noteParams = .ok noteValues ∧
    decodeLog approvalKeccak approvalLog approvalSignature approvalParams = .ok approvalValues := by
  obtain ⟨data,logs⟩ := decoding_inverts_encoding
  constructor
  · refine data noteParams noteValues noteData ?_ rfl
    exact .cons (.string _) (.cons (.uint _) (.cons (.bytes _) .nil))
  · refine logs approvalKeccak approvalSignature approvalParams approvalValues approvalLog
      [FixedBytes.zeros 32,FixedBytes.zeros 32] ?_ ?_ (by decide +kernel) rfl
    · exact .cons (.address _) (.cons (.address _) (.cons (.uint _) .nil))
    · exact .cons rfl (.cons rfl .nil)

end EvmRelay.Abi
