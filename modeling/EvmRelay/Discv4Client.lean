import EvmRelay.Discv4Packets
import EvmRelay.ParseUtility

namespace EvmRelay.Discv4
open Rlp ParseUtility

structure Discv4Config where
  tcpPort : BitVec 16
  privateKey : FixedBytes 32
  publicKey : NodeId
  deriving DecidableEq

structure Endpoint where
  address : FixedBytes 4
  port : BitVec 16
  deriving DecidableEq

-- The slots of a pending reply are null pointers where it waits for something else.
structure PendingReply where
  pong : Option Pong
  enrResponse : Option EnrResponse
  expectedHash : Hash256
  deriving DecidableEq

structure Discv4Client where
  peers : Text → Option DiscoveredPeer
  bondedSet : Text → Bool
  discoveredSet : Text → Bool
  pendingReplies : Text → Option PendingReply
  running : Bool

-- What the handlers do besides changing the client. Following a null pointer
-- is the end of the process.
inductive Event where
  | cancelTimer (key : Text)
  | spawnAnswer (ip : Text) (port : BitVec 16) (packet : List UInt8)
  | spawnDiscovery (peer : DiscoveredPeer)
  | errorCallback (packetType : UInt8)
  | nullPointer
  deriving DecidableEq

structure Handled where
  client : Discv4Client
  events : List Event

def decimal (n : Nat) : Text := ascii (toString n)

def dotted (ip : FixedBytes 4) : Text := List.intercalate (ascii ".") (ip.toList.map fun byte => decimal byte.toNat)

def endpointText (ip : Text) (port : BitVec 16) : Text := ip ++ (ascii ":" ++ decimal port.toNat)

def replyKey (ip : Text) (port : BitVec 16) (ptype : UInt8) : Text := endpointText ip port ++ (ascii ":" ++ decimal ptype.toNat)

def Endpoint.replyKey (sender : Endpoint) (ptype : UInt8) : Text := Discv4.replyKey (dotted sender.address) sender.port ptype

def nodeKey (nodeId : NodeId) : Text :=
  nodeId.toList.flatMap fun (byte : UInt8) => [hexAlphabet (byte >>> 4),hexAlphabet (byte &&& 0x0f)]

namespace Discv4Client
variable (client : Discv4Client)

def bond (endpoint : Text) : Discv4Client := { client with bondedSet := Function.update client.bondedSet endpoint true }

def setReply (key : Text) (reply : PendingReply) : Discv4Client :=
  { client with pendingReplies := Function.update client.pendingReplies key (some reply) }

end Discv4Client

section handlers
variable (crypto : Crypto) (config : Discv4Config)

-- The PONG for a PING, signed. `now` is std::time as 32 bits.
def makePong (now : BitVec 32) (data : ByteView) (sender : Endpoint) : Option (List UInt8) :=
  let pingHash := data.bytes.take kWireHashSize
  let written := finalizeEncoding (writeList do
    writeList do
      addBytes sender.address.toList
      addUint16 sender.port
      addUint16 config.tcpPort
    addBytes pingHash
    addUint32 (now + kPacketExpirySeconds))
  match written with
  | .error _ => none
  | .ok bytes => (signPacket crypto config.privateKey (kPacketTypePong :: bytes)).toOption

def handlePing (now : BitVec 32) (client : Discv4Client) (data : ByteView) (sender : Endpoint) : Handled :=
  match makePong crypto config now data sender with
  | none => ⟨client,[]⟩
  | some packet =>
    let ip := dotted sender.address
    ⟨client.bond (endpointText ip sender.port),[.spawnAnswer ip sender.port packet]⟩

-- A reply with the token of a request that waits for it: the slot is filled and
-- the waiting coroutine woken.
def settleReply (client : Discv4Client) (key : Text) (token : Hash256) (hasSlot : PendingReply → Bool)
    (fill : PendingReply → PendingReply) : Handled :=
  match client.pendingReplies key with
  | none => ⟨client,[]⟩
  | some reply =>
    if token ≠ reply.expectedHash then ⟨client,[]⟩
    else if hasSlot reply then ⟨client.setReply key (fill reply),[.cancelTimer key]⟩
    else ⟨client,[.nullPointer]⟩

def handlePong (client : Discv4Client) (data : ByteView) (sender : Endpoint) : Handled :=
  match parsePong data with
  | .error _ => ⟨client,[]⟩
  | .ok pong =>
    settleReply client (sender.replyKey kPacketTypePong) pong.pingHash (fun reply => reply.pong.isSome)
      fun reply => { reply with pong := some pong }

def storePeer (handled : Handled) (node : NodeEntry) : Handled :=
  if node.tcpPort = 0 then handled
  else
    let client := handled.client
    let peer : DiscoveredPeer := ⟨node.nodeId,dotted node.ip,node.udpPort,node.tcpPort,none⟩
    let client := { client with peers := Function.update client.peers (nodeKey node.nodeId) (some peer) }
    let epKey := endpointText peer.ip peer.udpPort
    if client.running && !client.discoveredSet epKey then
      ⟨{ client with discoveredSet := Function.update client.discoveredSet epKey true },handled.events ++ [.spawnDiscovery peer]⟩
    else ⟨client,handled.events⟩

def handleNeighbours (client : Discv4Client) (data : ByteView) (sender : Endpoint) : Handled :=
  let key := sender.replyKey kPacketTypeNeighbours
  match client.pendingReplies key with
  | none => ⟨client,[]⟩
  | some _ => (parseNeighbours data).foldl storePeer ⟨client,[.cancelTimer key]⟩

def handleEnrResponse (client : Discv4Client) (data : ByteView) (sender : Endpoint) : Handled :=
  match parseEnrResponse data with
  | .error _ => ⟨client,[]⟩
  | .ok response =>
    settleReply client (sender.replyKey kPacketTypeEnrResponse) response.requestHash (fun reply => reply.enrResponse.isSome)
      fun reply => { reply with enrResponse := some response }

-- FIND_NODE and ENRRequest packets are dropped.
def handlePacket (now : BitVec 32) (client : Discv4Client) (data : ByteView) (sender : Endpoint) : Handled :=
  if data.length < kWireHeaderSize then ⟨client,[]⟩
  else if packetType data = kPacketTypePing then handlePing crypto config now client data sender
  else if packetType data = kPacketTypePong then handlePong client data sender
  else if packetType data = kPacketTypeFindNode then ⟨client,[]⟩
  else if packetType data = kPacketTypeNeighbours then handleNeighbours client data sender
  else if packetType data = kPacketTypeEnrRequest then ⟨client,[]⟩
  else if packetType data = kPacketTypeEnrResponse then handleEnrResponse client data sender
  else ⟨client,[.errorCallback (packetType data)]⟩

end handlers

end EvmRelay.Discv4
