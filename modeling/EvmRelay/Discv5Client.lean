import EvmRelay.Discv5Messages

namespace EvmRelay.Discv5
open Rlp Enr

abbrev kMaxPacketBytes : Nat := 1280
abbrev kMessageAuthDataBytes : Nat := 32
abbrev kWhoareyouIdNonceBytes : Nat := 16
abbrev kWhoareyouAuthDataBytes : Nat := 24
abbrev kMessageTypePrefixBytes : Nat := 1

structure Endpoint where
  address : String
  port : BitVec 16
  deriving DecidableEq

def endpointKey (ip : String) (port : BitVec 16) : String := ip ++ ":" ++ toString port.toNat

def Endpoint.key (endpoint : Endpoint) : String := endpointKey endpoint.address endpoint.port

def ValidatedPeer.key (peer : ValidatedPeer) : String := endpointKey peer.ip peer.udpPort

structure SessionState where
  writeKey : FixedBytes 16
  readKey : FixedBytes 16
  remoteNodeAddr : NodeAddress
  remoteNodeId : NodeId
  lastReqId : List UInt8
  deriving DecidableEq

structure PendingRequest where
  peer : ValidatedPeer
  reqId : List UInt8
  requestNonce : FixedBytes 12
  challengeData : List UInt8
  idNonce : FixedBytes 16
  recordSeq : BitVec 64
  haveChallenge : Bool
  deriving DecidableEq

structure ChallengeState where
  remoteNodeAddr : NodeAddress
  challengeData : List UInt8
  requestNonce : FixedBytes 12
  idNonce : FixedBytes 16
  recordSeq : BitVec 64
  deriving DecidableEq

structure Discv5Client where
  sessions : String → Option SessionState
  pendingRequests : String → Option PendingRequest
  sentChallenges : String → Option ChallengeState

def Discv5Client.new : Discv5Client := ⟨fun _ => none,fun _ => none,fun _ => none⟩

namespace Discv5Client
variable (client : Discv5Client) (key : String)

def setSession (session : SessionState) : Discv5Client :=
  { client with sessions := Function.update client.sessions key (some session) }

def eraseSession : Discv5Client := { client with sessions := Function.update client.sessions key none }

def setPending (pending : PendingRequest) : Discv5Client :=
  { client with pendingRequests := Function.update client.pendingRequests key (some pending) }

def erasePending : Discv5Client := { client with pendingRequests := Function.update client.pendingRequests key none }

def setChallenge (challenge : ChallengeState) : Discv5Client :=
  { client with sentChallenges := Function.update client.sentChallenges key (some challenge) }

def eraseChallenge : Discv5Client := { client with sentChallenges := Function.update client.sentChallenges key none }

end Discv5Client

inductive Task where
  | sendFindnode (peer : ValidatedPeer)
  | sendWhoareyou (sender : Endpoint) (remoteNodeAddr : NodeAddress) (requestNonce : FixedBytes 12)
  | handleFindnodeRequest (reqId : List UInt8) (sender : Endpoint)
  deriving DecidableEq

inductive Counter where
  | whoareyouPackets | inboundMessageSeen | inboundMessageDecryptFail | nodesPackets | handshakePackets
  | inboundHandshakeSeen | inboundHandshakeRejectAuth | inboundHandshakeRejectChallenge | inboundHandshakeRejectRecord
  | inboundHandshakeRejectCrypto | inboundHandshakeRejectDecrypt
  | sendFindnodeFailures | outboundHandshakeAttempts | outboundHandshakeFailures
  deriving DecidableEq

-- What the client does besides changing its maps. Nothing in the code stands
-- for `opened` and `asked`: a session was made, and a FINDNODE with that
-- request id left on it.
inductive Event where
  | count (counter : Counter)
  | spawn (task : Task)
  | markMeasured (nodeId : NodeId)
  | markFailed (nodeId : NodeId)
  | ingest (peers : List ValidatedPeer)
  | datagram (destination : String) (packet : List UInt8)
  | opened (key : String)
  | asked (key : String) (reqId : List UInt8)
  deriving DecidableEq

inductive Rejection where
  | undecodable | whoareyouSize | noRequest | messageSize | noSession | messageDecrypt | emptyMessage | nodesMalformed
  | otherReqId | findnodeMalformed | otherMessage | handshakeAuth | noChallenge | noRecord | recordInvalid | otherRecord
  | idSignature | sharedSecret | handshakeDecrypt | otherFlag
  deriving DecidableEq

-- How handle_packet ends. Aborted is the record parser's read behind its bytes.
inductive Verdict where
  | challenged | nodes (reqId : List UInt8) | findnode | handshake
  | rejected (why : Rejection)
  | aborted
  deriving DecidableEq

structure Handled where
  client : Discv5Client
  verdict : Verdict
  events : List Event

section handlers
variable (crypto : Crypto) (text : AddressText) (config : Discv5Config)

def localNodeAddr : NodeAddress := deriveNodeAddress crypto config.publicKey

def readU64Be (data : List UInt8) : BitVec 64 := ByteEncoding.readBe 64 (data.take 8)

def handleWhoareyou (client : Discv5Client) (packet : PacketView) (sender : Endpoint) : Handled :=
  if packet.authSize ≠ kWhoareyouAuthDataBytes then ⟨client,.rejected .whoareyouSize,[]⟩
  else
    match client.pendingRequests sender.key with
    | none => ⟨client,.rejected .noRequest,[]⟩
    | some pending =>
      if pending.requestNonce ≠ packet.nonce then ⟨client,.rejected .noRequest,[]⟩
      else
        let pending := { pending with
          idNonce := .copy 16 packet.authData.items
          recordSeq := readU64Be (packet.authData.items.drop kWhoareyouIdNonceBytes)
          challengeData := packet.headerData
          haveChallenge := true }
        ⟨client.setPending sender.key pending,.challenged,[.count .whoareyouPackets,.spawn (.sendFindnode pending.peer)]⟩

def handleNodes (client : Discv5Client) (session : SessionState) (body : ByteView) : Handled :=
  match parseNodesMessage crypto text body with
  | .error .outOfBounds => ⟨client,.aborted,[]⟩
  | .error (.returned _) => ⟨client,.rejected .nodesMalformed,[]⟩
  | .ok (reqId,peers) =>
    if session.lastReqId ≠ [] ∧ reqId ≠ session.lastReqId then ⟨client,.rejected .otherReqId,[]⟩
    else ⟨client,.nodes reqId,[.count .nodesPackets,.markMeasured session.remoteNodeId,.ingest peers]⟩

def handleFindnode (client : Discv5Client) (sender : Endpoint) (body : ByteView) : Handled :=
  match parseFindnodeReqId body with
  | .error _ => ⟨client,.rejected .findnodeMalformed,[]⟩
  | .ok reqId => ⟨client,.findnode,[.spawn (.handleFindnodeRequest reqId sender)]⟩

def handlePlaintext (client : Discv5Client) (session : SessionState) (sender : Endpoint) (plaintext : StdVector UInt8) : Handled :=
  match plaintext.items with
  | [] => ⟨client,.rejected .emptyMessage,[]⟩
  | msgType :: _ =>
    let body := (ByteView.ofVector plaintext).removePrefix kMessageTypePrefixBytes
    if msgType = kMsgNodes then handleNodes crypto text client session body
    else if msgType = kMsgFindNode then handleFindnode client sender body
    else ⟨client,.rejected .otherMessage,[]⟩

def Handled.after (events : List Event) (handled : Handled) : Handled := { handled with events := events ++ handled.events }

def handleMessage (client : Discv5Client) (packet : PacketView) (sender : Endpoint) : Handled :=
  .after [.count .inboundMessageSeen] <|
    if packet.authSize ≠ kMessageAuthDataBytes then ⟨client,.rejected .messageSize,[]⟩
    else
      let remoteNodeAddr : NodeAddress := .copy 32 packet.authData.items
      let challenge := Event.spawn (.sendWhoareyou sender remoteNodeAddr packet.nonce)
      match client.sessions sender.key with
      | none => ⟨client,.rejected .noSession,[challenge]⟩
      | some session =>
        if session.remoteNodeAddr ≠ remoteNodeAddr then ⟨client,.rejected .noSession,[challenge]⟩
        else
          match decryptGcm crypto session.readKey packet.nonce packet.msgData packet.headerData with
          | .error _ => ⟨client,.rejected .messageDecrypt,[.count .inboundMessageDecryptFail,challenge]⟩
          | .ok plaintext => handlePlaintext crypto text client session sender plaintext

def checkHandshake (challenge : Option ChallengeState) (packet : PacketView) : Checked Rejection SessionState :=
  match parseHandshakeAuth packet.authData with
  | .error _ => .error (.returned .handshakeAuth)
  | .ok auth =>
    match challenge with
    | none => .error (.returned .noChallenge)
    | some challenge =>
      if auth.srcId ≠ challenge.remoteNodeAddr then .error (.returned .noChallenge)
      else if auth.record.bytes = [] then .error (.returned .noRecord)
      else
        match decodeRlp text auth.record >>= verifySignature crypto.toCrypto with
        | .error .outOfBounds => .error .outOfBounds
        | .error (.returned _) => .error (.returned .recordInvalid)
        | .ok record =>
          if deriveNodeAddress crypto record.nodeId ≠ auth.srcId then .error (.returned .otherRecord)
          else if ¬ verifyIdSignature crypto record.nodeId auth.signature challenge.challengeData auth.pubkey
              (localNodeAddr crypto config) then .error (.returned .idSignature)
          else
            match sharedSecretFromCompressedPubkey crypto auth.pubkey config.privateKey with
            | .error _ => .error (.returned .sharedSecret)
            | .ok shared =>
              let keys := deriveSessionKeys crypto shared challenge.challengeData auth.srcId (localNodeAddr crypto config)
              .ok {
                writeKey := keys.2
                readKey := keys.1
                remoteNodeAddr := auth.srcId
                remoteNodeId := record.nodeId
                lastReqId := [] }

def rejectCounter : Rejection → Counter
  | .handshakeAuth => .inboundHandshakeRejectAuth
  | .noChallenge => .inboundHandshakeRejectChallenge
  | .sharedSecret => .inboundHandshakeRejectCrypto
  | .handshakeDecrypt => .inboundHandshakeRejectDecrypt
  | _ => .inboundHandshakeRejectRecord

def acceptHandshake (client : Discv5Client) (session : SessionState) (sender : Endpoint) (plaintext : StdVector UInt8) : Handled :=
  .after [.opened sender.key,.count .handshakePackets] <|
    match plaintext.items with
    | [] => ⟨client,.handshake,[]⟩
    | msgType :: _ =>
      if msgType = kMsgFindNode then
        match parseFindnodeReqId ((ByteView.ofVector plaintext).removePrefix kMessageTypePrefixBytes) with
        | .error _ => ⟨client,.handshake,[]⟩
        | .ok reqId =>
          ⟨client.setSession sender.key { session with lastReqId := reqId },.handshake,[.spawn (.handleFindnodeRequest reqId sender)]⟩
      else ⟨client,.handshake,[]⟩

def handleHandshake (client : Discv5Client) (packet : PacketView) (sender : Endpoint) : Handled :=
  .after [.count .inboundHandshakeSeen] <|
    match checkHandshake crypto text config (client.sentChallenges sender.key) packet with
    | .error .outOfBounds => ⟨client,.aborted,[]⟩
    | .error (.returned why) => ⟨client,.rejected why,[.count (rejectCounter why)]⟩
    | .ok session =>
      let client := client.setSession sender.key session
      match decryptGcm crypto session.readKey packet.nonce packet.msgData packet.headerData with
      | .error _ => ⟨client.eraseSession sender.key,.rejected .handshakeDecrypt,[.count (rejectCounter .handshakeDecrypt)]⟩
      | .ok plaintext => acceptHandshake (client.eraseChallenge sender.key) session sender plaintext

def handlePacket (client : Discv5Client) (data : ByteView) (sender : Endpoint) : Handled :=
  match decodePacket crypto.aesCtr data (localNodeAddr crypto config) with
  | .error _ => ⟨client,.rejected .undecodable,[]⟩
  | .ok packet =>
    if packet.flag = kFlagWhoareyou then handleWhoareyou client packet sender
    else if packet.flag = kFlagMessage then handleMessage crypto text client packet sender
    else if packet.flag = kFlagHandshake then handleHandshake crypto text config client packet sender
    else ⟨client,.rejected .otherFlag,[]⟩

-- The buffer of receive_loop takes a datagram up to its size.
def receiveBuffer (datagram : List UInt8) : ByteView :=
  ⟨datagram.take kMaxPacketBytes,Nat.lt_of_le_of_lt (List.length_take_le _ _) (by decide)⟩

-- What a call gets from the random generator, the key generator and the socket;
-- none where they fail. A packet that is sent leaves if `sent` is true.
structure Draws where
  nonce : Option (FixedBytes 12)
  maskingIv : Option (FixedBytes 16)
  randomMsg : Option (FixedBytes 20)
  idNonce : Option (FixedBytes 16)
  ephemeral : Option (PrivateKey × NodeId)
  localPort : Option (BitVec 16)
  sent : Bool

def drawn (error : Discv5Error) (value : Option α) : Except Discv5Error α :=
  match value with
  | none => .error error
  | some value => .ok value

def buildLocalEnr (draws : Draws) : Except Discv5Error (List UInt8) := do
  let port ← drawn .kNetworkSendFailed draws.localPort
  makeLocalEnrRecord crypto config port

-- A call that ends with sending a packet: the coroutine is suspended there and
-- has nothing left to do with the maps.
structure Sent where
  client : Discv5Client
  result : Except Discv5Error Unit
  events : List Event

def failedSend (client : Discv5Client) (error : Discv5Error) : Sent := ⟨client,.error error,[]⟩

def sendPacket (draws : Draws) (client : Discv5Client) (destination : String) (packet : List UInt8) (noted : List Event) : Sent :=
  if draws.sent then ⟨client,.ok (),.datagram destination packet :: noted⟩ else failedSend client .kNetworkSendFailed

def requestId (peer : ValidatedPeer) : List UInt8 := BigEndian.fixed 2 peer.udpPort.toNat ++ BigEndian.fixed 2 peer.tcpPort.toNat

def makeMessagePacket (draws : Draws) (writeKey : FixedBytes 16) (remoteNodeAddr : NodeAddress) (plaintext : List UInt8) :
    Except Discv5Error (List UInt8) := do
  let nonce ← drawn .kNetworkSendFailed draws.nonce
  let (packet,header) ← encodePacket crypto.aesCtr draws.maskingIv kFlagMessage nonce (localNodeAddr crypto config).toList []
    remoteNodeAddr
  let encrypted ← encryptGcm crypto writeKey nonce plaintext header
  return packet ++ encrypted

def makeFindnodePacket (draws : Draws) (session : SessionState) (peer : ValidatedPeer) : Except Discv5Error (List UInt8) := do
  let plaintext ← makeFindnodePlaintext (requestId peer)
  makeMessagePacket crypto config draws session.writeKey (deriveNodeAddress crypto peer.nodeId) plaintext

def newPending (peer : ValidatedPeer) (nonce : FixedBytes 12) : PendingRequest :=
  ⟨peer,requestId peer,nonce,[],.zeros 16,0,false⟩

def sendRequest (draws : Draws) (client : Discv5Client) (peer : ValidatedPeer) : Sent :=
  -- A request that was never challenged is dropped for the new one.
  let client := client.erasePending peer.key
  match draws.nonce with
  | none => failedSend client .kNetworkSendFailed
  | some nonce =>
    let client := client.setPending peer.key (newPending peer nonce)
    match draws.randomMsg with
    | none => failedSend client .kNetworkSendFailed
    | some randomMsg =>
      match encodePacket crypto.aesCtr draws.maskingIv kFlagMessage nonce (localNodeAddr crypto config).toList randomMsg.toList
          (deriveNodeAddress crypto peer.nodeId) with
      | .error error => failedSend (client.erasePending peer.key) error
      | .ok (packet,_) => sendPacket draws client peer.key packet []

def recordFor (draws : Draws) (recordSeq : BitVec 64) : Except Discv5Error (List UInt8) :=
  if recordSeq < kInitialEnrSeq then buildLocalEnr crypto config draws else .ok []

def makeHandshakePacket (draws : Draws) (pending : PendingRequest) (peer : ValidatedPeer) :
    Except Discv5Error (SessionState × List UInt8) := do
  let remoteNodeAddr := deriveNodeAddress crypto peer.nodeId
  let (ephPrivate,ephPublic) ← drawn .kContextCreationFailed draws.ephemeral
  let ephCompressed ← compressPublicKey crypto ephPublic
  let signature ← makeIdSignature crypto config.privateKey pending.challengeData ephCompressed.toList remoteNodeAddr
  let localEnrRecord ← recordFor crypto config draws pending.recordSeq
  let shared ← sharedSecretFromUncompressedPubkey crypto pending.peer.nodeId ephPrivate
  let keys := deriveSessionKeys crypto shared pending.challengeData (localNodeAddr crypto config) remoteNodeAddr
  let authData := handshakeAuthData (localNodeAddr crypto config) signature ephCompressed localEnrRecord
  let plaintext ← makeFindnodePlaintext pending.reqId
  let nonce ← drawn .kNetworkSendFailed draws.nonce
  let (packet,header) ← encodePacket crypto.aesCtr draws.maskingIv kFlagHandshake nonce authData [] remoteNodeAddr
  let encrypted ← encryptGcm crypto keys.1 nonce plaintext header
  return ({
    writeKey := keys.1
    readKey := keys.2
    remoteNodeAddr := remoteNodeAddr
    remoteNodeId := pending.peer.nodeId
    lastReqId := pending.reqId },packet ++ encrypted)

def Sent.noting (attempt : List Event) (failure : List Event) (sent : Sent) : Sent :=
  { sent with events := attempt ++ (sent.events ++ match sent.result with
    | .ok _ => []
    | .error _ => failure) }

def sendHandshake (draws : Draws) (client : Discv5Client) (pending : PendingRequest) (peer : ValidatedPeer) : Sent :=
  .noting [.count .outboundHandshakeAttempts] [.count .outboundHandshakeFailures] <|
    match makeHandshakePacket crypto config draws pending peer with
    | .error error => failedSend client error
    | .ok (session,packet) =>
      let client := (client.setSession peer.key session).erasePending peer.key
      .noting [.opened peer.key] [] (sendPacket draws client peer.key packet [.asked peer.key pending.reqId])

def sendFindnode (draws : Draws) (client : Discv5Client) (peer : ValidatedPeer) : Sent :=
  match client.sessions peer.key with
  | some session =>
    match makeFindnodePacket crypto config draws session peer with
    | .error error => failedSend client error
    | .ok packet =>
      let client := client.setSession peer.key { session with lastReqId := requestId peer }
      sendPacket draws client peer.key packet [.asked peer.key (requestId peer)]
  | none =>
    match client.pendingRequests peer.key with
    | none => sendRequest crypto config draws client peer
    | some pending =>
      if pending.haveChallenge then sendHandshake crypto config draws client pending peer
      else sendRequest crypto config draws client peer

def whoareyouAuthData (idNonce : FixedBytes 16) (recordSeq : BitVec 64) : List UInt8 :=
  idNonce.toList ++ BigEndian.fixed 8 recordSeq.toNat

def sendWhoareyou (draws : Draws) (client : Discv5Client) (sender : Endpoint) (remoteNodeAddr : NodeAddress)
    (requestNonce : FixedBytes 12) : Sent :=
  match draws.idNonce with
  | none => failedSend client .kNetworkSendFailed
  | some idNonce =>
    match encodePacket crypto.aesCtr draws.maskingIv kFlagWhoareyou requestNonce (whoareyouAuthData idNonce 0) [] remoteNodeAddr with
    | .error error => failedSend client error
    | .ok (packet,header) =>
      let challenge := {
        remoteNodeAddr := remoteNodeAddr
        challengeData := header
        requestNonce := requestNonce
        idNonce := idNonce
        recordSeq := 0 }
      sendPacket draws (client.setChallenge sender.key challenge) sender.key packet []

def makeNodesPacket (draws : Draws) (session : SessionState) (reqId : List UInt8) : Except Discv5Error (List UInt8) := do
  let enr ← buildLocalEnr crypto config draws
  let plaintext ← makeNodesPlaintext reqId enr
  makeMessagePacket crypto config draws session.writeKey session.remoteNodeAddr plaintext

def handleFindnodeRequest (draws : Draws) (client : Discv5Client) (reqId : List UInt8) (sender : Endpoint) : Sent :=
  match client.sessions sender.key with
  | none => failedSend client .kNetworkSendFailed
  | some session =>
    match makeNodesPacket crypto config draws session reqId with
    | .error error => failedSend client error
    | .ok packet => sendPacket draws client sender.key packet []

def runTask (draws : Draws) (client : Discv5Client) : Task → Sent
  | .sendFindnode peer =>
    .noting [] [.count .sendFindnodeFailures,.markFailed peer.nodeId] (sendFindnode crypto config draws client peer)
  | .sendWhoareyou sender remoteNodeAddr requestNonce => sendWhoareyou crypto draws client sender remoteNodeAddr requestNonce
  | .handleFindnodeRequest reqId sender => handleFindnodeRequest crypto config draws client reqId sender

def crawl (draws : Draws) (client : Discv5Client) (peer : ValidatedPeer) : Sent :=
  let sent := sendFindnode crypto config draws client peer
  match sent.result with
  | .ok _ => { sent with events := sent.events ++ [.markMeasured peer.nodeId] }
  | .error _ => { sent with events := sent.events ++ [.count .sendFindnodeFailures,.markFailed peer.nodeId] }

end handlers

end EvmRelay.Discv5
