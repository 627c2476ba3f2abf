import EvmRelay.Discv5Record

namespace EvmRelay.Discv5
open Rlp RlpSpec Enr

abbrev kMsgFindNode : UInt8 := 0x03
abbrev kMsgNodes : UInt8 := 0x04
abbrev kFindNodeDistanceAll : BitVec 32 := 256
abbrev kNodesResponseCountSingle : BitVec 8 := 1
abbrev kHandshakeAuthSigSizeOffset : Nat := 32
abbrev kHandshakeAuthPubkeySizeOffset : Nat := 33
abbrev kHandshakeAuthFixedBytes : Nat := 34
abbrev kDefaultUdpPort : BitVec 16 := 9000
abbrev kDefaultTcpPort : BitVec 16 := 30303

-- discovery::ValidatedPeer without the time it was last seen at.
structure ValidatedPeer where
  nodeId : NodeId
  ip : String
  udpPort : BitVec 16
  tcpPort : BitVec 16
  ethForkId : Option ForkId
  deriving DecidableEq

def makeFindnodePlaintext (reqId : List UInt8) : Except Discv5Error (List UInt8) := do
  let bytes ← encodeOr .kNetworkSendFailed (writeList do
    addBytes reqId
    writeList (addUint32 kFindNodeDistanceAll))
  return kMsgFindNode :: bytes

def makeNodesPlaintext (reqId enrRecord : List UInt8) : Except Discv5Error (List UInt8) := do
  let bytes ← encodeOr .kNetworkSendFailed (writeList do
    addBytes reqId
    addUint8 kNodesResponseCountSingle
    writeList (addRawBytes enrRecord))
  return kMsgNodes :: bytes

-- Every decoder error below is reported as the same code.
def received (read : Except DecodingError α) : Except Discv5Error α :=
  match read with
  | .ok value => .ok value
  | .error _ => .error .kNetworkReceiveFailed

def parseFindnodeReqId (body : ByteView) : Except Discv5Error (List UInt8) := do
  let (_,view) ← received (readListHeaderBytes body)
  let (reqId,_) ← received (readBytes view)
  return reqId

def toValidatedPeer (record : EnrRecord) : Except Discv5Error ValidatedPeer :=
  if record.ip.isEmpty ∧ record.ip6.isEmpty then .error .kEnrMissingAddress
  else if ¬ record.ip.isEmpty then
    .ok {
      nodeId := record.nodeId
      ip := record.ip
      udpPort := if record.udpPort ≠ 0 then record.udpPort else kDefaultUdpPort
      tcpPort := if record.tcpPort ≠ 0 then record.tcpPort else kDefaultTcpPort
      ethForkId := record.ethForkId }
  else
    .ok {
      nodeId := record.nodeId
      ip := record.ip6
      udpPort := if record.udp6Port ≠ 0 then record.udp6Port else kDefaultUdpPort
      tcpPort := if record.tcp6Port ≠ 0 then record.tcp6Port else kDefaultTcpPort
      ethForkId := record.ethForkId }

-- A record of a NODES message. One that does not parse or verify is passed
-- over; the parser's read behind its view is not an error it returns.
def recordPeer (crypto : Crypto) (text : AddressText) (rawRecord : ByteView) : Checked Discv5Error (Option ValidatedPeer) :=
  match decodeRlp text rawRecord >>= verifySignature crypto.toCrypto with
  | .error .outOfBounds => .error .outOfBounds
  | .error (.returned _) => .ok none
  | .ok record => .ok (toValidatedPeer record).toOption

-- while (!decoder.IsFinished()), with nodes_start as the view the loop began
-- with. A turn that goes on has taken an item, so its length bounds the turns.
def readNodes (crypto : Crypto) (text : AddressText) (nodesLen : Nat) (nodesStart : ByteView) :
    Nat → ByteView → Checked Discv5Error (List ValidatedPeer)
  | 0,_ => .ok []
  | fuel+1,view =>
    if isFinished view then .ok []
    else if sizeSub nodesStart.length view.length ≥ nodesLen then .ok []
    else
      match peekHeader view with
      | .error _ => .ok []
      | .ok header =>
        let rawLen := sizeAdd header.headerSizeBytes header.payloadSizeBytes
        match skipItem view with
        | .error _ => .ok []
        | .ok rest => do
          let found ← recordPeer crypto text (view.substr 0 rawLen)
          let peers ← readNodes crypto text nodesLen nodesStart fuel rest
          return found.toList ++ peers

def readNodesHead (body : ByteView) : Except Discv5Error (List UInt8 × Nat × ByteView) := do
  let (_,view) ← received (readListHeaderBytes body)
  let (reqId,view) ← received (readBytes view)
  let (_,view) ← received (readUnsigned (.integral .uint8) view)
  let (nodesLen,nodesStart) ← received (readListHeaderBytes view)
  return (reqId,nodesLen,nodesStart)

def parseNodesMessage (crypto : Crypto) (text : AddressText) (body : ByteView) :
    Checked Discv5Error (List UInt8 × List ValidatedPeer) :=
  match readNodesHead body with
  | .error error => .error (.returned error)
  | .ok (reqId,nodesLen,nodesStart) => do
    let peers ← readNodes crypto text nodesLen nodesStart nodesStart.length nodesStart
    return (reqId,peers)

structure HandshakeAuthView where
  srcId : NodeAddress
  signature : List UInt8
  pubkey : List UInt8
  record : ByteView

def parseHandshakeAuth (authData : StdVector UInt8) : Except Discv5Error HandshakeAuthView :=
  if authData.items.length < kHandshakeAuthFixedBytes then .error .kNetworkReceiveFailed
  else
    let sigSize := ((authData.items.drop kHandshakeAuthSigSizeOffset).headD 0).toNat
    let pubkeySize := ((authData.items.drop kHandshakeAuthPubkeySizeOffset).headD 0).toNat
    let pubkeyOffset := kHandshakeAuthFixedBytes + sigSize
    let recordOffset := pubkeyOffset + pubkeySize
    if recordOffset > authData.items.length then .error .kNetworkReceiveFailed
    else
      .ok {
        srcId := .copy 32 authData.items
        signature := (authData.items.drop kHandshakeAuthFixedBytes).take sigSize
        pubkey := (authData.items.drop pubkeyOffset).take pubkeySize
        record := (ByteView.ofVector authData).removePrefix recordOffset }

def handshakeAuthData (localNodeAddr : NodeAddress) (signature : FixedBytes 64) (ephCompressed : FixedBytes 33)
    (localEnrRecord : List UInt8) : List UInt8 :=
  localNodeAddr.toList ++ (64 :: 33 :: (signature.toList ++ (ephCompressed.toList ++ localEnrRecord)))

theorem parseHandshakeAuth_made (spelled : authData.items = handshakeAuthData srcId signature pubkey record.bytes) :
    parseHandshakeAuth authData = .ok ⟨srcId,signature.toList,pubkey.toList,record⟩ := by
  have behindId : authData.items.drop 32 = 64 :: 33 :: (signature.toList ++ (pubkey.toList ++ record.bytes)) := by
    rw [spelled]
    exact List.drop_left' srcId.toList_length
  have behindSigSize : authData.items.drop 33 = 33 :: (signature.toList ++ (pubkey.toList ++ record.bytes)) := by
    have next := congrArg (List.drop 1) behindId
    rwa [List.drop_drop] at next
  have behindSizes : authData.items.drop 34 = signature.toList ++ (pubkey.toList ++ record.bytes) := by
    have next := congrArg (List.drop 1) behindSigSize
    rwa [List.drop_drop] at next
  have behindSignature : authData.items.drop 98 = pubkey.toList ++ record.bytes := by
    rw [show 98 = 34 + 64 from rfl,← List.drop_drop,behindSizes]
    exact List.drop_left' signature.toList_length
  have behindPubkey : authData.items.drop 131 = record.bytes := by
    rw [show 131 = 98 + 33 from rfl,← List.drop_drop,behindSignature]
    exact List.drop_left' pubkey.toList_length
  have total : authData.items.length = 131 + record.bytes.length := by
    rw [spelled,handshakeAuthData]
    simp only [List.length_append,List.length_cons,srcId.toList_length,signature.toList_length,pubkey.toList_length]
    omega
  have front : FixedBytes.copy 32 authData.items = srcId := by rw [spelled]; exact FixedBytes.copy_toList ..
  have last : (ByteView.ofVector authData).removePrefix 131 = record := ByteView.ext_bytes behindPubkey
  unfold parseHandshakeAuth
  simp only [behindId,behindSigSize,List.headD_cons]
  rw [if_neg (by rw [total]; exact Nat.not_lt.mpr (Nat.le_trans (by decide) (Nat.le_add_right _ _))),
    if_neg (by rw [total]; exact Nat.not_lt.mpr (Nat.le_add_right _ _)),front]
  have sigBytes : (authData.items.drop 34).take 64 = signature.toList := by
    rw [behindSizes]
    exact List.take_left' signature.toList_length
  have keyBytes : (authData.items.drop 98).take 33 = pubkey.toList := by
    rw [behindSignature]
    exact List.take_left' pubkey.toList_length
  exact congrArg Except.ok (by rw [HandshakeAuthView.mk.injEq]; exact ⟨rfl,sigBytes,keyBytes,last⟩)

end EvmRelay.Discv5
