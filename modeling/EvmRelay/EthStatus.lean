import EvmRelay.EthMessages
import EvmRelay.FirstFit

namespace EvmRelay.Eth
open Rlp RlpSpec Reader Codec

structure ForkId where
  forkHash : FixedBytes 4
  nextFork : BitVec 64
  deriving DecidableEq

structure StatusMessage68 where
  protocolVersion : UInt8
  networkId : BitVec 64
  td : BitVec 256
  blockhash : Hash256
  genesisHash : Hash256
  forkId : ForkId
  deriving DecidableEq

structure StatusMessage69 where
  protocolVersion : UInt8
  networkId : BitVec 64
  genesisHash : Hash256
  forkId : ForkId
  earliestBlock : BitVec 64
  latestBlock : BitVec 64
  latestBlockHash : Hash256
  deriving DecidableEq

inductive StatusMessage where
  | v68 (msg : StatusMessage68)
  | v69 (msg : StatusMessage69)
  deriving DecidableEq

structure CommonStatusFields where
  protocolVersion : UInt8
  networkId : BitVec 64
  genesisHash : Hash256
  forkId : ForkId

def getCommonFields : StatusMessage → CommonStatusFields
  | .v68 m => ⟨m.protocolVersion,m.networkId,m.genesisHash,m.forkId⟩
  | .v69 m => ⟨m.protocolVersion,m.networkId,m.genesisHash,m.forkId⟩

abbrev kStatusMessageId : UInt8 := 0x00

def writeForkId (forkId : ForkId) : Encoder := writeList do
  addBytes forkId.forkHash.toList
  addUint64 forkId.nextFork

def encodeStatus : StatusMessage → Except EncodingError (List UInt8)
  | .v68 m => finalizeEncoding (writeList do
      addUint8 m.protocolVersion.toBitVec
      addUint64 m.networkId
      addWord m.td
      addBytes m.blockhash.toList
      addBytes m.genesisHash.toList
      writeForkId m.forkId)
  | .v69 m => finalizeEncoding (writeList do
      addUint8 m.protocolVersion.toBitVec
      addUint64 m.networkId
      addBytes m.genesisHash.toList
      writeForkId m.forkId
      addUint64 m.earliestBlock
      addUint64 m.latestBlock
      addBytes m.latestBlockHash.toList)

structure DecodedStatusFields where
  protocolVersion : Option UInt8
  networkId : Option (BitVec 64)
  td : Option (BitVec 256)
  blockHash : Option Hash256
  genesisHash : Option Hash256
  forkId : Option ForkId
  earliestBlock : Option (BitVec 64)
  latestBlock : Option (BitVec 64)
  latestBlockHash : Option Hash256

def DecodedStatusFields.new : DecodedStatusFields := ⟨none,none,none,none,none,none,none,none,none⟩

def legacySchema (version : UInt8) : EthMessageSchema where
  name := ascii "Status"
  messageId := kStatusMessageId
  protocolVersion := some version
  fields := ⟨[
    ⟨ascii "protocol_version",.kUint8,none,some 0⟩,
    ⟨ascii "network_id",.kUint64,none,some 1⟩,
    ⟨ascii "td",.kUint256,none,some 2⟩,
    ⟨ascii "block_hash",.kHash32,some 32,some 3⟩,
    ⟨ascii "genesis_hash",.kHash32,some 32,some 4⟩,
    ⟨ascii "fork_id",.kForkId,none,some 5⟩],by decide⟩

def rangeSchema : EthMessageSchema where
  name := ascii "Status"
  messageId := kStatusMessageId
  protocolVersion := some 69
  fields := ⟨[
    ⟨ascii "protocol_version",.kUint8,none,some 0⟩,
    ⟨ascii "network_id",.kUint64,none,some 1⟩,
    ⟨ascii "genesis_hash",.kHash32,some 32,some 2⟩,
    ⟨ascii "fork_id",.kForkId,none,some 3⟩,
    ⟨ascii "earliest_block",.kUint64,none,some 4⟩,
    ⟨ascii "latest_block",.kUint64,none,some 5⟩,
    ⟨ascii "latest_block_hash",.kHash32,some 32,some 6⟩],by decide⟩

def defaultStatusSchemas : StdVector EthMessageSchema :=
  ⟨[rangeSchema,legacySchema 68,legacySchema 67,legacySchema 66],by decide⟩

def readForkIdField : Decoder ForkId := do
  let listPayloadSize ← (readListHeaderBytes : Decoder Nat)
  let listStartRemaining := (← get).length
  if listStartRemaining < listPayloadSize then throw .kInputTooShort
  else
    let forkHash ← orError (readFixed 4) .kUnexpectedLength
    let nextFork ← orError readUint64 .kUnexpectedString
    if (← get).length ≠ listStartRemaining - listPayloadSize then throw .kInputTooLong
    else return ⟨forkHash,nextFork⟩

def uintLimit : EthMessageFieldType → Option Nat
  | .kUint8 => some 255
  | .kUint16 => some 65535
  | .kUint32 => some 4294967295
  | _ => none

def storeUint (name : List UInt8) (value : BitVec 64) (out : DecodedStatusFields) : DecodedStatusFields :=
  if name = ascii "protocol_version" then { out with protocolVersion := some ⟨value.setWidth 8⟩ }
  else if name = ascii "network_id" then { out with networkId := some value }
  else if name = ascii "earliest_block" then { out with earliestBlock := some value }
  else if name = ascii "latest_block" then { out with latestBlock := some value }
  else out

def storeHash (name : List UInt8) (value : Hash256) (out : DecodedStatusFields) : DecodedStatusFields :=
  if name = ascii "block_hash" then { out with blockHash := some value }
  else if name = ascii "genesis_hash" then { out with genesisHash := some value }
  else if name = ascii "latest_block_hash" then { out with latestBlockHash := some value }
  else out

def readUintField (field : EthMessageFieldSchema) (out : DecodedStatusFields) : Decoder DecodedStatusFields := do
  let value ← orError readUint64 .kUnexpectedString
  if (uintLimit field.type).any fun limit => decide (value.toNat > limit) then throw .kOverflow
  else return storeUint field.name value out

def skipField (out : DecodedStatusFields) : Decoder DecodedStatusFields := do
  let _ ← skipOne
  return out

def readSchemaField (field : EthMessageFieldSchema) (index : Nat) (out : DecodedStatusFields) : Decoder DecodedStatusFields :=
  if field.offset.any fun offset => decide (offset ≠ index) then throw .kListLengthMismatch
  else match field.type with
  | .kUint8 | .kUint16 | .kUint32 | .kUint64 => readUintField field out
  | .kUint256 => do
    let value ← orError readWord .kUnexpectedString
    return if field.name = ascii "td" then { out with td := some value } else out
  | .kHash32 => do
    let value ← orError (readFixed 32) .kUnexpectedLength
    return storeHash field.name value out
  | .kHash4 => do
    let _ ← readFixed 4
    return out
  | .kForkId => do
    let value ← readForkIdField
    return if field.name = ascii "fork_id" then { out with forkId := some value } else out
  | .kBytes =>
    match field.size with
    | none => skipField out
    | some size => do
      let bytes ← readByteBuffer
      if bytes.items.length ≠ size then throw .kUnexpectedLength
      else return out
  | _ => skipField out

-- for (size_t i = 0; i < schema.fields.size(); ++i)
def readSchemaFields : Nat → List EthMessageFieldSchema → DecodedStatusFields → Decoder DecodedStatusFields
  | _,[],out => return out
  | index,field :: rest,out => do
    let out ← readSchemaField field index out
    readSchemaFields (index + 1) rest out

def decodeStatusFieldsWithSchema (rlpData : ByteView) (schema : EthMessageSchema) : Except DecodingError DecodedStatusFields :=
  if schema.name ≠ ascii "Status" ∨ schema.messageId ≠ kStatusMessageId then .error .kUnexpectedString
  else do
    let (listPayloadSize,view) ← readListHeaderBytes rlpData
    if view.length < listPayloadSize then .error .kInputTooShort
    else
      let targetRemaining := view.length - listPayloadSize
      if targetRemaining ≠ 0 then .error .kInputTooLong
      else
        let (out,rest) ← readSchemaFields 0 schema.fields.items .new view
        if rest.length ≠ targetRemaining then .error .kInputTooLong
        else if schema.protocolVersion.any fun version => decide (out.protocolVersion ≠ some version) then .error .kUnexpectedString
        else .ok out

def makeStatusMessageFromFields (fields : DecodedStatusFields) : Except DecodingError StatusMessage :=
  match fields.protocolVersion,fields.networkId,fields.genesisHash,fields.forkId with
  | some protocolVersion,some networkId,some genesisHash,some forkId =>
    if protocolVersion = 69 then
      match fields.earliestBlock,fields.latestBlock,fields.latestBlockHash with
      | some earliestBlock,some latestBlock,some latestBlockHash =>
        .ok (.v69 ⟨protocolVersion,networkId,genesisHash,forkId,earliestBlock,latestBlock,latestBlockHash⟩)
      | _,_,_ =>
        match fields.blockHash with
        | some blockHash => .ok (.v69 ⟨protocolVersion,networkId,genesisHash,forkId,0,0,blockHash⟩)
        | none => .error .kInputTooShort
    else if protocolVersion = 68 ∨ protocolVersion = 67 ∨ protocolVersion = 66 then
      match fields.td,fields.blockHash with
      | some td,some blockHash => .ok (.v68 ⟨protocolVersion,networkId,td,blockHash,genesisHash,forkId⟩)
      | _,_ => .error .kInputTooShort
    else .error .kUnexpectedString
  | _,_,_,_ => .error .kInputTooShort

def decodeStatusBy (rlpData : ByteView) (schema : EthMessageSchema) : Except DecodingError StatusMessage := do
  let fields ← decodeStatusFieldsWithSchema rlpData schema
  makeStatusMessageFromFields fields

def decodeStatusWith (schemas : StdVector EthMessageSchema) (rlpData : ByteView) : Except DecodingError StatusMessage :=
  firstFit (decodeStatusBy rlpData) .kUnexpectedString schemas.items

def decodeStatus (rlpData : ByteView) : Except DecodingError StatusMessage := decodeStatusWith defaultStatusSchemas rlpData

section reads
variable {field : EthMessageFieldSchema}

def versionField : EthMessageFieldSchema := ⟨ascii "protocol_version",.kUint8,none,some 0⟩

theorem storeUint_version (other : field.name ≠ ascii "protocol_version") (value : BitVec 64) :
    (storeUint field.name value out).protocolVersion = out.protocolVersion := by
  unfold storeUint
  rw [if_neg other]
  split_ifs <;> rfl

theorem storeHash_version : (storeHash name value out).protocolVersion = out.protocolVersion := by
  unfold storeHash
  split_ifs <;> rfl

theorem readUintField_version (other : field.name ≠ ascii "protocol_version")
    (ran : readUintField field out v = .ok (after,rest)) : after.protocolVersion = out.protocolVersion := by
  obtain ⟨value,view,_,ran⟩ := bind_ok_iff.mp ran
  split at ran
  · cases ran
  · cases ran
    exact storeUint_version other value

theorem skipField_version (ran : skipField out v = .ok (after,rest)) : after.protocolVersion = out.protocolVersion := by
  obtain ⟨_,_,_,ran⟩ := bind_ok_iff.mp ran
  cases ran
  rfl

theorem readSchemaField_version (other : field.name ≠ ascii "protocol_version")
    (ran : readSchemaField field index out v = .ok (after,rest)) : after.protocolVersion = out.protocolVersion := by
  obtain ⟨name,type,size,offset⟩ := field
  unfold readSchemaField at ran
  split at ran
  · cases ran
  cases type with
  | kUint8 | kUint16 | kUint32 | kUint64 => exact readUintField_version other ran
  | kUint256 | kForkId =>
    obtain ⟨_,_,_,ran⟩ := bind_ok_iff.mp ran
    cases ran
    split_ifs <;> rfl
  | kHash32 =>
    obtain ⟨_,_,_,ran⟩ := bind_ok_iff.mp ran
    cases ran
    exact storeHash_version
  | kHash4 =>
    obtain ⟨_,_,_,ran⟩ := bind_ok_iff.mp ran
    cases ran
    rfl
  | kBytes =>
    cases size with
    | none => exact skipField_version ran
    | some size =>
      obtain ⟨_,_,_,ran⟩ := bind_ok_iff.mp ran
      split at ran
      · cases ran
      · cases ran
        rfl
  | _ => exact skipField_version ran

theorem readSchemaFields_version (others : ∀ field ∈ fields,field.name ≠ ascii "protocol_version")
    (ran : readSchemaFields index fields out v = .ok (after,rest)) : after.protocolVersion = out.protocolVersion := by
  induction fields generalizing index out v with
  | nil =>
    cases ran
    rfl
  | cons field later ih =>
    obtain ⟨between,view,one,ran⟩ := bind_ok_iff.mp ran
    rw [ih (fun field member => others field (List.mem_cons_of_mem _ member)) ran]
    exact readSchemaField_version (others field List.mem_cons_self) one

theorem readSchemaFields_first (others : ∀ field ∈ fields,field.name ≠ ascii "protocol_version")
    (ran : readSchemaFields 0 (versionField :: fields) .new v = .ok (after,rest)) :
    ∃ value view,readUint64 v = .ok (value,view) ∧ after.protocolVersion = some ⟨value.setWidth 8⟩ := by
  obtain ⟨between,view,one,ran⟩ := bind_ok_iff.mp ran
  have first : readUintField versionField .new v = .ok (between,view) := one
  obtain ⟨value,left,read,first⟩ := bind_ok_iff.mp first
  split at first
  · cases first
  · cases first
    exact ⟨value,view,orError_ok.mp read,(readSchemaFields_version others ran).trans rfl⟩

theorem default_schema_fields : ∀ schema ∈ defaultStatusSchemas.items,∃ fields version,
    schema.fields.items = versionField :: fields ∧ (∀ field ∈ fields,field.name ≠ ascii "protocol_version") ∧
      schema.protocolVersion = some version := by
  intro schema member
  simp only [defaultStatusSchemas,List.mem_cons,List.not_mem_nil,or_false] at member
  rcases member with rfl | rfl | rfl | rfl <;> exact ⟨_,_,rfl,by decide,rfl⟩

theorem default_schema_version : ∀ one ∈ defaultStatusSchemas.items,∀ other ∈ defaultStatusSchemas.items,
    one.protocolVersion = other.protocolVersion → one = other := by decide

theorem decodeStatusBy_version (member : schema ∈ defaultStatusSchemas.items)
    (read : decodeStatusBy v schema = .ok msg) : ∃ size view value left,
      readListHeaderBytes v = .ok (size,view) ∧ readUint64 view = .ok (value,left) ∧
        schema.protocolVersion = some ⟨value.setWidth 8⟩ := by
  obtain ⟨fields,version,named,others,asked⟩ := default_schema_fields schema member
  obtain ⟨out,decoded,_⟩ := bind_ok.mp read
  unfold decodeStatusFieldsWithSchema at decoded
  split_ifs at decoded
  obtain ⟨⟨size,view⟩,headed,decoded⟩ := bind_ok.mp decoded
  dsimp only at decoded
  split_ifs at decoded
  obtain ⟨⟨found,left⟩,ran,decoded⟩ := bind_ok.mp decoded
  split_ifs at decoded with _ matched
  rw [named] at ran
  obtain ⟨value,behind,first,stored⟩ := readSchemaFields_first others ran
  refine ⟨size,view,value,behind,headed,first,?_⟩
  rw [asked,Option.any_some,decide_eq_true_eq,not_not,stored] at matched
  rw [asked,matched]

theorem default_schemas_agree (left : one ∈ defaultStatusSchemas.items)
    (right : other ∈ defaultStatusSchemas.items) (first : decodeStatusBy v one = .ok found)
    (second : decodeStatusBy v other = .ok msg) : one = other ∧ found = msg := by
  obtain ⟨_,_,_,_,headed,read,asked⟩ := decodeStatusBy_version left first
  obtain ⟨_,_,_,_,again,reread,wanted⟩ := decodeStatusBy_version right second
  cases headed.symm.trans again
  cases read.symm.trans reread
  have same := default_schema_version one left other right (asked.trans wanted.symm)
  subst same
  cases first.symm.trans second
  exact ⟨rfl,rfl⟩

theorem default_schemas_fit (v : ByteView) : FirstFit.Agree (decodeStatusBy v) defaultStatusSchemas.items :=
  fun _ left _ right _ _ first second => (default_schemas_agree left right first second).2

theorem decodeStatus_iff :
    decodeStatus v = .ok msg ↔ ∃ schema ∈ defaultStatusSchemas.items,decodeStatusBy v schema = .ok msg :=
  FirstFit.ok_iff (default_schemas_fit v)

end reads

def forkIdWire (forkId : ForkId) : List UInt8 :=
  encodeList (fixedWire forkId.forkHash ++ encodeScalar forkId.nextFork.toNat)

def legacyPayload (m : StatusMessage68) : List UInt8 :=
  encodeScalar m.protocolVersion.toNat ++ (encodeScalar m.networkId.toNat ++ (encodeScalar m.td.toNat ++
    (fixedWire m.blockhash ++ (fixedWire m.genesisHash ++ forkIdWire m.forkId))))

def rangePayload (m : StatusMessage69) : List UInt8 :=
  encodeScalar m.protocolVersion.toNat ++ (encodeScalar m.networkId.toNat ++ (fixedWire m.genesisHash ++
    (forkIdWire m.forkId ++ (encodeScalar m.earliestBlock.toNat ++ (encodeScalar m.latestBlock.toNat ++
      fixedWire m.latestBlockHash)))))

def statusWire : StatusMessage → List UInt8
  | .v68 m => encodeList (legacyPayload m)
  | .v69 m => encodeList (rangePayload m)

theorem forkId_writes (forkId : ForkId) : Writes (writeForkId forkId) (some (forkIdWire forkId)) :=
  ((addBytes_writes _).join (addUint64_writes _)).list

theorem encodeStatus_wire (fits : (statusWire msg).length < sizeLimit) : encodeStatus msg = .ok (statusWire msg) := by
  cases msg with
  | v68 m =>
    have writes := ((addUint8_writes m.protocolVersion.toBitVec).join ((addUint64_writes m.networkId).join
      ((addWord_writes m.td).join ((addBytes_writes m.blockhash.toList).join
        ((addBytes_writes m.genesisHash.toList).join (forkId_writes m.forkId)))))).list
    exact (finalizeEncoding_exact writes fits).mpr rfl
  | v69 m =>
    have writes := ((addUint8_writes m.protocolVersion.toBitVec).join ((addUint64_writes m.networkId).join
      ((addBytes_writes m.genesisHash.toList).join ((forkId_writes m.forkId).join ((addUint64_writes m.earliestBlock).join
        ((addUint64_writes m.latestBlock).join (addBytes_writes m.latestBlockHash.toList))))))).list
    exact (finalizeEncoding_exact writes fits).mpr rfl

theorem encodeScalar_le (width : Nat) (value : BitVec (8 * width)) (small : width ≤ 55) : (encodeScalar value.toNat).length ≤ width + 1 := by
  have bytes : BigEndian.byteLength value.toNat ≤ width := by
    apply BigEndian.byteLength_le
    have below := value.isLt
    rwa [Nat.pow_mul] at below
  have short : (BigEndian.minimal value.toNat).length ≤ 55 := by
    rw [BigEndian.minimal_length]
    omega
  have bound := encodeString_short short
  rw [BigEndian.minimal_length] at bound
  unfold encodeScalar
  omega

theorem fixedWire_le (value : FixedBytes count) (small : count ≤ 55) : (fixedWire value).length ≤ count + 1 := by
  have width : value.toList.length = count := value.2
  have bound : (encodeString value.toList).length ≤ value.toList.length + 1 := encodeString_short (by omega)
  unfold fixedWire
  omega

theorem forkIdWire_le (forkId : ForkId) : (forkIdWire forkId).length ≤ 15 := by
  have hash := fixedWire_le forkId.forkHash (by decide)
  have next := encodeScalar_le 8 forkId.nextFork (by decide)
  have size : (fixedWire forkId.forkHash ++ encodeScalar forkId.nextFork.toNat).length ≤ 14 := by
    rw [List.length_append]
    omega
  unfold forkIdWire
  rw [encodeList_short (by omega)]
  omega

theorem encodeList_le (small : payload.length < 256) : (encodeList payload).length ≤ payload.length + 2 := by
  have width : BigEndian.byteLength payload.length ≤ 1 := BigEndian.byteLength_le small
  rw [encodeList,List.length_append,listHeader,header_length]
  split <;> omega

theorem statusWire_fits (msg : StatusMessage) : (statusWire msg).length < sizeLimit := by
  have bounded : (statusWire msg).length ≤ 255 := by
    cases msg with
    | v68 m =>
      have version := encodeScalar_le 1 m.protocolVersion.toBitVec (by decide)
      have network := encodeScalar_le 8 m.networkId (by decide)
      have total := encodeScalar_le 32 m.td (by decide)
      have block := fixedWire_le m.blockhash (by decide)
      have genesis := fixedWire_le m.genesisHash (by decide)
      have fork := forkIdWire_le m.forkId
      have size : (legacyPayload m).length ≤ 250 := by
        simp only [legacyPayload,List.length_append,← UInt8.toNat_toBitVec]
        omega
      exact (encodeList_le (by omega)).trans (by omega)
    | v69 m =>
      have version := encodeScalar_le 1 m.protocolVersion.toBitVec (by decide)
      have network := encodeScalar_le 8 m.networkId (by decide)
      have genesis := fixedWire_le m.genesisHash (by decide)
      have fork := forkIdWire_le m.forkId
      have earliest := encodeScalar_le 8 m.earliestBlock (by decide)
      have latest := encodeScalar_le 8 m.latestBlock (by decide)
      have block := fixedWire_le m.latestBlockHash (by decide)
      have size : (rangePayload m).length ≤ 250 := by
        simp only [rangePayload,List.length_append,← UInt8.toNat_toBitVec]
        omega
      exact (encodeList_le (by omega)).trans (by omega)
  exact Nat.lt_of_le_of_lt bounded (by decide)

def statusPayload (msg : StatusMessage) : StdVector UInt8 := ⟨statusWire msg,statusWire_fits msg⟩

theorem encodeStatus_fits (encoded : encodeStatus msg = .ok bytes) : bytes.length < sizeLimit := by
  cases (encodeStatus_wire (statusWire_fits msg)).symm.trans encoded
  exact statusWire_fits msg

theorem forkId_read (forkId : ForkId) : Reads readForkIdField (forkIdWire forkId) forkId := by
  intro v rest spelled
  have inner : Reads (do
      let forkHash ← orError (readFixed 4) .kUnexpectedLength
      let nextFork ← orError readUint64 .kUnexpectedString
      return (⟨forkHash,nextFork⟩ : ForkId)) (fixedWire forkId.forkHash ++ encodeScalar forkId.nextFork.toNat) forkId :=
    (orError_reads _ (readFixed_reads _)).bind ((orError_reads _ (readUint64_reads _)).map _)
  obtain ⟨view,headed,behind⟩ := encodeList_opens spelled
  have size : view.length = (fixedWire forkId.forkHash ++ encodeScalar forkId.nextFork.toNat).length + rest.length := by
    rw [ByteView.length,behind,List.length_append]
    rfl
  obtain ⟨forkHash,afterHash,hashed,ran⟩ := bind_ok_iff.mp (inner view rest behind)
  obtain ⟨nextFork,afterNext,next,ran⟩ := bind_ok_iff.mp ran
  cases ran
  refine bind_ok_iff.mpr ⟨_,view,headed,bind_ok_iff.mpr ⟨view,view,rfl,?_⟩⟩
  rw [if_neg (by omega)]
  refine bind_ok_iff.mpr ⟨_,afterHash,hashed,bind_ok_iff.mpr ⟨_,rest,next,bind_ok_iff.mpr ⟨rest,rest,rfl,?_⟩⟩⟩
  rw [if_neg (by omega)]
  rfl

theorem readSchemaField_placed :
    ¬ ((⟨name,type,size,some index⟩ : EthMessageFieldSchema).offset.any fun offset => decide (offset ≠ index)) := by simp

theorem version_read (version : UInt8) :
    Reads (readSchemaField versionField 0 out) (encodeScalar version.toNat) { out with protocolVersion := some version } := by
  intro v rest spelled
  have value := orError_reads .kUnexpectedString (readUint64_reads (version.toBitVec.setWidth 64))
  unfold readSchemaField
  rw [if_neg (by decide)]
  refine bind_ok_iff.mpr ⟨_,rest,value v rest spelled,?_⟩
  have small : ¬ ((uintLimit versionField.type).any fun limit => decide ((version.toBitVec.setWidth 64).toNat > limit)) := by
    have below := version.toNat_lt
    simp [versionField,uintLimit]
    omega
  have back : (⟨(version.toBitVec.setWidth 64).setWidth 8⟩ : UInt8) = version := by
    simp
  rw [if_neg small]
  show Except.ok (storeUint (ascii "protocol_version") _ out,rest) = _
  rw [storeUint,if_pos rfl,back]

theorem uint64_read (name : List UInt8) (value : BitVec 64) :
    Reads (readSchemaField ⟨name,.kUint64,none,some index⟩ index out) (encodeScalar value.toNat) (storeUint name value out) := by
  intro v rest spelled
  unfold readSchemaField
  rw [if_neg readSchemaField_placed]
  exact bind_ok_iff.mpr ⟨value,rest,orError_reads _ (readUint64_reads value) v rest spelled,rfl⟩

theorem hash_read (name : List UInt8) (value : Hash256) :
    Reads (readSchemaField ⟨name,.kHash32,some 32,some index⟩ index out) (fixedWire value) (storeHash name value out) := by
  intro v rest spelled
  unfold readSchemaField
  rw [if_neg readSchemaField_placed]
  exact bind_ok_iff.mpr ⟨value,rest,orError_reads _ (readFixed_reads value) v rest spelled,rfl⟩

theorem td_read (value : BitVec 256) : Reads (readSchemaField ⟨ascii "td",.kUint256,none,some index⟩ index out)
    (encodeScalar value.toNat) { out with td := some value } := by
  intro v rest spelled
  unfold readSchemaField
  rw [if_neg readSchemaField_placed]
  exact bind_ok_iff.mpr ⟨value,rest,orError_reads _ (readWord_reads value) v rest spelled,by rw [if_pos rfl]; rfl⟩

theorem fork_read (value : ForkId) : Reads (readSchemaField ⟨ascii "fork_id",.kForkId,none,some index⟩ index out)
    (forkIdWire value) { out with forkId := some value } := by
  intro v rest spelled
  unfold readSchemaField
  rw [if_neg readSchemaField_placed]
  exact bind_ok_iff.mpr ⟨value,rest,forkId_read value v rest spelled,by rw [if_pos rfl]; rfl⟩

theorem last_read
    (reads : Reads (readSchemaField field index out) taken after) : Reads (readSchemaFields index [field] out) taken after := by
  have whole := reads.bind (.pure after)
  rwa [List.append_nil] at whole

def legacyFields (m : StatusMessage68) : DecodedStatusFields :=
  ⟨some m.protocolVersion,some m.networkId,some m.td,some m.blockhash,some m.genesisHash,some m.forkId,none,none,none⟩

def rangeFields (m : StatusMessage69) : DecodedStatusFields :=
  ⟨some m.protocolVersion,some m.networkId,none,none,some m.genesisHash,some m.forkId,some m.earliestBlock,
    some m.latestBlock,some m.latestBlockHash⟩

theorem legacy_read (m : StatusMessage68) :
    Reads (readSchemaFields 0 (legacySchema version).fields.items .new) (legacyPayload m) (legacyFields m) := by
  refine (version_read m.protocolVersion).bind ?_
  refine (uint64_read (ascii "network_id") m.networkId).bind ?_
  refine (td_read m.td).bind ?_
  refine (hash_read (ascii "block_hash") m.blockhash).bind ?_
  refine (hash_read (ascii "genesis_hash") m.genesisHash).bind ?_
  exact last_read (fork_read m.forkId)

theorem range_read (m : StatusMessage69) :
    Reads (readSchemaFields 0 rangeSchema.fields.items .new) (rangePayload m) (rangeFields m) := by
  refine (version_read m.protocolVersion).bind ?_
  refine (uint64_read (ascii "network_id") m.networkId).bind ?_
  refine (hash_read (ascii "genesis_hash") m.genesisHash).bind ?_
  refine (fork_read m.forkId).bind ?_
  refine (uint64_read (ascii "earliest_block") m.earliestBlock).bind ?_
  refine (uint64_read (ascii "latest_block") m.latestBlock).bind ?_
  exact last_read (hash_read (ascii "latest_block_hash") m.latestBlockHash)

theorem decodeStatusFields_complete
    (status : schema.name = ascii "Status" ∧ schema.messageId = kStatusMessageId) (spelled : v.bytes = encodeList payload)
    (reads : Reads (readSchemaFields 0 schema.fields.items .new) payload fields)
    (matched : schema.protocolVersion = fields.protocolVersion) : decodeStatusFieldsWithSchema v schema = .ok fields := by
  obtain ⟨view,headed,behind⟩ := encodeList_opens (spelled.trans (List.append_nil _).symm)
  have size : view.length = payload.length := by rw [ByteView.length,behind,List.append_nil]
  have ran := reads view .empty behind
  unfold decodeStatusFieldsWithSchema
  rw [if_neg (by simp [status])]
  refine bind_ok.mpr ⟨(payload.length,view),headed,?_⟩
  dsimp only
  rw [if_neg (by omega),if_neg (by omega)]
  refine bind_ok.mpr ⟨(fields,.empty),ran,?_⟩
  rw [if_neg (by rw [size,Nat.sub_self]; exact fun wrong => wrong rfl)]
  rw [matched,if_neg]
  cases fields.protocolVersion <;> simp

theorem decodeStatus_legacy (legacy : m.protocolVersion = 66 ∨ m.protocolVersion = 67 ∨ m.protocolVersion = 68)
    (spelled : v.bytes = statusWire (.v68 m)) : decodeStatus v = .ok (.v68 m) := by
  have made : makeStatusMessageFromFields (legacyFields m) = .ok (.v68 m) := by
    obtain ⟨version,_,_,_,_,_⟩ := m
    rcases legacy with rfl | rfl | rfl <;> rfl
  have member : legacySchema m.protocolVersion ∈ defaultStatusSchemas.items := by
    rcases legacy with same | same | same <;> rw [same] <;> decide
  have read := decodeStatusFields_complete ⟨rfl,rfl⟩ spelled (legacy_read m) rfl
  exact decodeStatus_iff.mpr ⟨_,member,bind_ok.mpr ⟨_,read,made⟩⟩

theorem decodeStatus_range (range : m.protocolVersion = 69)
    (spelled : v.bytes = statusWire (.v69 m)) : decodeStatus v = .ok (.v69 m) := by
  have made : makeStatusMessageFromFields (rangeFields m) = .ok (.v69 m) := by
    obtain ⟨version,_,_,_,_,_,_⟩ := m
    subst range
    rfl
  have read := decodeStatusFields_complete ⟨rfl,rfl⟩ spelled (range_read m) (congrArg some range.symm)
  exact decodeStatus_iff.mpr ⟨_,List.mem_cons_self,bind_ok.mpr ⟨_,read,made⟩⟩

-- Every Status is read back, and the order in which the schemas are tried does
-- not matter: one of them reads it, or none.
theorem status_codec : (∀ m : StatusMessage68,m.protocolVersion = 66 ∨ m.protocolVersion = 67 ∨ m.protocolVersion = 68 →
      ∃ v : ByteView,encodeStatus (.v68 m) = .ok v.bytes ∧ decodeStatus v = .ok (.v68 m)) ∧
    (∀ m : StatusMessage69,m.protocolVersion = 69 →
      ∃ v : ByteView,encodeStatus (.v69 m) = .ok v.bytes ∧ decodeStatus v = .ok (.v69 m)) ∧
    (∀ (v : ByteView) (schemas : StdVector EthMessageSchema),schemas.items.Perm defaultStatusSchemas.items →
      (decodeStatusWith schemas v).toOption = (decodeStatus v).toOption) ∧
    (∀ (v : ByteView),∀ one ∈ defaultStatusSchemas.items,∀ other ∈ defaultStatusSchemas.items,∀ found msg,
      decodeStatusBy v one = .ok found → decodeStatusBy v other = .ok msg → one = other ∧ found = msg) := by
  refine ⟨?_,?_,?_,?_⟩
  · intro m legacy
    exact ⟨⟨_,statusWire_fits (.v68 m)⟩,encodeStatus_wire (statusWire_fits _),decodeStatus_legacy legacy rfl⟩
  · intro m range
    exact ⟨⟨_,statusWire_fits (.v69 m)⟩,encodeStatus_wire (statusWire_fits _),decodeStatus_range range rfl⟩
  · intro v schemas same
    exact FirstFit.perm (default_schemas_fit v) same .kUnexpectedString .kUnexpectedString
  · intro v one left other right found msg first second
    exact default_schemas_agree left right first second

def genesisFork : ForkId := ⟨.zeros 4,0⟩

def reversedStatusSchemas : StdVector EthMessageSchema := ⟨defaultStatusSchemas.items.reverse,by decide⟩

theorem sample_status_codec :
    (∃ v : ByteView,encodeStatus (.v68 ⟨67,1,0,.zeros 32,.zeros 32,genesisFork⟩) = .ok v.bytes ∧
      decodeStatus v = .ok (.v68 ⟨67,1,0,.zeros 32,.zeros 32,genesisFork⟩) ∧
      (decodeStatusWith reversedStatusSchemas v).toOption = some (.v68 ⟨67,1,0,.zeros 32,.zeros 32,genesisFork⟩)) ∧
    ∃ v : ByteView,encodeStatus (.v69 ⟨69,1,.zeros 32,genesisFork,0,7,.zeros 32⟩) = .ok v.bytes ∧
      decodeStatus v = .ok (.v69 ⟨69,1,.zeros 32,genesisFork,0,7,.zeros 32⟩) ∧
      (decodeStatusWith reversedStatusSchemas v).toOption = some (.v69 ⟨69,1,.zeros 32,genesisFork,0,7,.zeros 32⟩) := by
  obtain ⟨v,encoded,decoded⟩ := status_codec.1 ⟨67,1,0,.zeros 32,.zeros 32,genesisFork⟩ (by decide)
  obtain ⟨w,encoded',decoded'⟩ := status_codec.2.1 ⟨69,1,.zeros 32,genesisFork,0,7,.zeros 32⟩ rfl
  have reordered (view : ByteView) := status_codec.2.2.1 view reversedStatusSchemas (List.reverse_perm _)
  refine ⟨⟨v,encoded,decoded,?_⟩,w,encoded',decoded',?_⟩
  · rw [reordered,decoded]
    rfl
  · rw [reordered,decoded']
    rfl

end EvmRelay.Eth
