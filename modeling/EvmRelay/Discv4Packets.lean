import EvmRelay.DialScheduler
import EvmRelay.ObjectCodec

namespace EvmRelay.Discv4
open Rlp

-- hash(32) || signature(65) || packet-type(1) || RLP(payload)
abbrev kWireHashSize : Nat := 32
abbrev kWireSigSize : Nat := 65
abbrev kWirePacketTypeSize : Nat := 1
abbrev kWireHeaderSize : Nat := kWireHashSize + kWireSigSize + kWirePacketTypeSize
abbrev kWirePacketTypeOffset : Nat := kWireHashSize + kWireSigSize
abbrev kNodeIdSize : Nat := 64
abbrev kIPv4Size : Nat := 4
abbrev kPacketTypePing : UInt8 := 0x01
abbrev kPacketTypePong : UInt8 := 0x02
abbrev kPacketTypeFindNode : UInt8 := 0x03
abbrev kPacketTypeNeighbours : UInt8 := 0x04
abbrev kPacketTypeEnrRequest : UInt8 := 0x05
abbrev kPacketTypeEnrResponse : UInt8 := 0x06
abbrev kPacketExpirySeconds : BitVec 32 := 60

inductive Discv4Error where
  | kPacketTooSmall | kHashMismatch | kSignatureParseFailed | kSignatureRecoveryFailed | kSigningFailed | kContextCreationFailed
  deriving DecidableEq

-- keccak256 and libsecp256k1 with its recovery module.
structure Crypto where
  keccak256 : List UInt8 → Hash256
  contextCreate : Bool
  Signature : Type
  Pubkey : Type
  signRecoverable : Hash256 → FixedBytes 32 → Option (FixedBytes 64 × UInt8)
  recoverableParse : FixedBytes 64 → UInt8 → Option Signature
  recover : Signature → Hash256 → Option Pubkey
  pubkeySerialize : Pubkey → FixedBytes 65

section packets
variable (crypto : Crypto)

def signPacket (privateKey : FixedBytes 32) (payload : List UInt8) : Except Discv4Error (List UInt8) :=
  let msgHash := crypto.keccak256 payload
  if ¬ crypto.contextCreate then .error .kContextCreationFailed
  else
    match crypto.signRecoverable msgHash privateKey with
    | none => .error .kSigningFailed
    | some (compact,recid) =>
      let sigBytes := compact.toList ++ [recid]
      let outerHash := crypto.keccak256 (sigBytes ++ payload)
      .ok (outerHash.toList ++ (sigBytes ++ payload))

def verifyPacket (data : ByteView) : Except Discv4Error NodeId :=
  if data.length < kWireHeaderSize then .error .kPacketTooSmall
  else
    let sigData := data.bytes.drop kWireHashSize
    let payload := data.bytes.drop kWirePacketTypeOffset
    if data.bytes.take kWireHashSize ≠ (crypto.keccak256 (sigData.take kWireSigSize ++ payload)).toList then .error .kHashMismatch
    else
      let msgHash := crypto.keccak256 payload
      if ¬ crypto.contextCreate then .error .kContextCreationFailed
      else
        match crypto.recoverableParse (.copy 64 sigData) ((sigData.drop 64).headD 0) with
        | none => .error .kSignatureParseFailed
        | some sig =>
          match crypto.recover sig msgHash with
          | none => .error .kSignatureRecoveryFailed
          | some pubkey => .ok (crypto.pubkeySerialize pubkey).tail

end packets

structure PongEndpoint where
  ip : FixedBytes 4
  udpPort : BitVec 16
  tcpPort : BitVec 16
  deriving DecidableEq

structure Pong where
  toEndpoint : PongEndpoint
  pingHash : Hash256
  expiration : BitVec 32
  ersErq : BitVec 64
  deriving DecidableEq

structure EnrResponse where
  requestHash : Hash256
  recordRlp : List UInt8
  deriving DecidableEq

def readUint16 : Decoder (BitVec 16) := readUnsigned (.integral .uint16)

theorem readUint16_reads : Reader.Reads readUint16 (RlpSpec.encodeScalar value.toNat) value :=
  (readUnsigned_form (.integral .uint16)).reads (.inl rfl)

-- IsList and, if it is one, ReadListHeaderBytes.
def expectList : Decoder Nat := fun v => do
  let list ← isList v
  if ¬ list then .error .kUnexpectedString else readListHeaderBytes v

theorem expectList_exact (v : ByteView) (rest : ByteView) :
    expectList v = .ok (size,rest) ↔ v.bytes = RlpSpec.listHeader size ++ rest.bytes ∧ size ≤ rest.length := by
  rw [← readListHeaderBytes_exact]
  constructor
  · intro ran
    obtain ⟨list,_,ran⟩ := bind_ok.mp ran
    split_ifs at ran
    exact ran
  · intro headed
    obtain ⟨spelled,room⟩ := (readListHeaderBytes_exact ..).mp headed
    have peeked := (peekHeader_list ..).mpr ⟨_,spelled,rfl,room⟩
    exact bind_ok.mpr ⟨true,isList_announced ((peekHeader_exact v _).mp peeked),headed⟩

def parseEndpoint : Decoder PongEndpoint := do
  let _ ← expectList
  let ip ← readFixed 4
  let udpPort ← readUint16
  let tcpPort ← readUint16
  return ⟨ip,udpPort,tcpPort⟩

-- The sequence number of the sender's record, 0 where the packet ends before it.
def readErsErq : Decoder (BitVec 64) := fun v => if isFinished v then .ok (0,v) else readUint64 v

def readPong : Decoder Pong := do
  let _ ← expectList
  let toEndpoint ← parseEndpoint
  let pingHash ← readFixed 32
  let expiration ← readUint64
  let ersErq ← readErsErq
  let _ ← Codec.skipItems
  return ⟨toEndpoint,pingHash,expiration.setWidth 32,ersErq⟩

def packetType (raw : ByteView) : UInt8 := (raw.bytes.drop kWirePacketTypeOffset).headD 0

theorem payload_behind (lead : FixedBytes kWirePacketTypeOffset) (spelled : raw.bytes = lead.toList ++ type :: payload) :
    kWireHeaderSize ≤ raw.length ∧ packetType raw = type ∧ (raw.removePrefix kWireHeaderSize).bytes = payload := by
  have width : lead.toList.length = kWirePacketTypeOffset := lead.2
  refine ⟨?_,?_,?_⟩
  · rw [ByteView.length,spelled,List.length_append,width,List.length_cons]
    exact Nat.add_le_add_left (Nat.le_add_left 1 _) _
  · rw [packetType,spelled,List.drop_left' width]
    rfl
  · rw [ByteView.removePrefix_bytes,spelled,List.append_cons]
    exact List.drop_left' (by rw [List.length_append,width]; rfl)

def parsePong (raw : ByteView) : Except DecodingError Pong :=
  if raw.length ≤ kWireHeaderSize - kWirePacketTypeSize then .error .kUnexpectedString
  else if packetType raw ≠ kPacketTypePong then .error .kUnexpectedString
  else (readPong (raw.removePrefix kWireHeaderSize)).map Prod.fst

def readEnrResponse : Decoder EnrResponse := fun v => do
  let (_,v) ← expectList v
  let (requestHash,v) ← readFixed 32 v
  let recordHeader ← peekHeader v
  let recordTotal := sizeAdd recordHeader.headerSizeBytes recordHeader.payloadSizeBytes
  if v.length < recordTotal then .error .kInputTooShort
  else
    let after ← skipItem v
    return (⟨requestHash,(v.substr 0 recordTotal).bytes⟩,after)

theorem returned_iff {ran : Except ε (α × β)} : ran.map Prod.fst = .ok value ↔ ∃ rest,ran = .ok (value,rest) := by
  cases ran with
  | error error => simp [Except.map]
  | ok result => simp [Except.map,Prod.ext_iff]

def parseEnrResponse (raw : ByteView) : Except DecodingError EnrResponse :=
  if raw.length ≤ kWireHeaderSize then .error .kInputTooShort
  else if packetType raw ≠ kPacketTypeEnrResponse then .error .kUnexpectedString
  else (readEnrResponse (raw.removePrefix kWireHeaderSize)).map Prod.fst

structure NodeEntry where
  ip : FixedBytes 4
  udpPort : BitVec 16
  tcpPort : BitVec 16
  nodeId : NodeId
  deriving DecidableEq

-- while (!skip_decoder.IsFinished()) { if (!skip_decoder.SkipItem()) { break; } }
def skipWhole : Nat → ByteView → ByteView
  | 0,v => v
  | fuel+1,v =>
    if isFinished v then v
    else
      match skipItem v with
      | .error _ => v
      | .ok rest => skipWhole fuel rest

def skipNodeRest (nodeLen : Nat) (nodeStart v : ByteView) : ByteView :=
  let nodeConsumed := sizeSub nodeStart.length v.length
  if nodeConsumed < nodeLen then
    let skipView := v.substr 0 (nodeLen - nodeConsumed)
    v.removePrefix (sizeSub skipView.length (skipWhole skipView.length skipView).length)
  else v

def readArray (count : Nat) : Decoder (FixedBytes count) := fun v => do
  let (bytes,rest) ← readBytes v
  if size : bytes.length = count then return (⟨bytes,size⟩,rest) else .error .kUnexpectedLength

-- One turn of the loop over the nodes; every error is a break.
def readNode : Decoder NodeEntry := fun v => do
  let (nodeLen,nodeStart) ← readListHeaderBytes v
  let (ip,v) ← readArray kIPv4Size nodeStart
  let (udpPort,v) ← readUint16 v
  let (tcpPort,v) ← readUint16 v
  let (nodeId,v) ← readArray kNodeIdSize v
  return (⟨ip,udpPort,tcpPort,nodeId⟩,skipNodeRest nodeLen nodeStart v)

-- A turn that goes on has read a header, so the length of the view bounds them.
def readNodes (nodesByteLen : Nat) (afterNodesStart : ByteView) : Nat → ByteView → List NodeEntry
  | 0,_ => []
  | fuel+1,v =>
    if isFinished v then []
    else if sizeSub afterNodesStart.length v.length ≥ nodesByteLen then []
    else
      match readNode v with
      | .error _ => []
      | .ok (node,rest) => node :: readNodes nodesByteLen afterNodesStart fuel rest

def parseNeighbours (raw : ByteView) : List NodeEntry :=
  match readListHeaderBytes (raw.removePrefix kWireHeaderSize) with
  | .error _ => []
  | .ok (_,v) =>
    match readListHeaderBytes v with
    | .error _ => []
    | .ok (nodesByteLen,afterNodesStart) => readNodes nodesByteLen afterNodesStart afterNodesStart.length afterNodesStart

end EvmRelay.Discv4
