import EvmRelay.Discv5Client

namespace EvmRelay.Discv5
open Rlp Enr

section agreement

theorem sendPacket_client : (sendPacket draws client destination packet noted).client = client := by
  unfold sendPacket
  split <;> rfl

structure HandshakeParts where
  ephPrivate : PrivateKey
  ephPublic : NodeId
  ephCompressed : FixedBytes 33
  signature : FixedBytes 64
  port : BitVec 16
  record : List UInt8
  shared : FixedBytes 33
  plaintext : List UInt8
  nonce : FixedBytes 12
  front : List UInt8
  header : List UInt8
  ciphertext : List UInt8

def HandshakeParts.keys (crypto : Crypto) (config : Discv5Config) (pending : PendingRequest) (peer : ValidatedPeer)
    (parts : HandshakeParts) : FixedBytes 16 × FixedBytes 16 :=
  deriveSessionKeys crypto parts.shared pending.challengeData (localNodeAddr crypto config) (deriveNodeAddress crypto peer.nodeId)

structure HandshakeParts.Made (crypto : Crypto) (config : Discv5Config) (draws : Draws) (pending : PendingRequest)
    (peer : ValidatedPeer) (parts : HandshakeParts) : Prop where
  drew : draws.ephemeral = some (parts.ephPrivate,parts.ephPublic)
  compressed : compressPublicKey crypto parts.ephPublic = .ok parts.ephCompressed
  signed : makeIdSignature crypto config.privateKey pending.challengeData parts.ephCompressed.toList
    (deriveNodeAddress crypto peer.nodeId) = .ok parts.signature
  recorded : makeLocalEnrRecord crypto config parts.port = .ok parts.record
  agreed : sharedSecretFromUncompressedPubkey crypto pending.peer.nodeId parts.ephPrivate = .ok parts.shared
  encoded : encodePacket crypto.aesCtr draws.maskingIv kFlagHandshake parts.nonce
    (handshakeAuthData (localNodeAddr crypto config) parts.signature parts.ephCompressed parts.record) []
    (deriveNodeAddress crypto peer.nodeId) = .ok (parts.front,parts.header)
  encrypted : encryptGcm crypto (parts.keys crypto config pending peer).1 parts.nonce parts.plaintext parts.header =
    .ok parts.ciphertext

theorem handshakeAuthData_length (srcId : NodeAddress) (signature : FixedBytes 64) (ephCompressed : FixedBytes 33) (record : List UInt8) :
    (handshakeAuthData srcId signature ephCompressed record).length = 131 + record.length := by
  rw [handshakeAuthData]
  simp only [List.length_append,List.length_cons,srcId.toList_length,signature.toList_length,ephCompressed.toList_length]
  omega

theorem HandshakeParts.Made.decoded {parts : HandshakeParts} (made : parts.Made crypto config draws pending peer)
    (spelled : data.bytes = parts.front ++ parts.ciphertext) (identified : peer.nodeId = recipient.publicKey) :
    ∃ (record : ByteView) (authData : StdVector UInt8),record.bytes = parts.record ∧
      decodePacket crypto.aesCtr data (localNodeAddr crypto recipient) =
        .ok ⟨kFlagHandshake,parts.nonce,authData.items.length,parts.header,authData,parts.ciphertext⟩ ∧
      parseHandshakeAuth authData =
        .ok ⟨localNodeAddr crypto config,parts.signature.toList,parts.ephCompressed.toList,record⟩ := by
  obtain ⟨_,_,_,_,_,_,_,short⟩ := makeLocalEnrRecord_ok made.recorded
  have width := handshakeAuthData_length (localNodeAddr crypto config) parts.signature parts.ephCompressed parts.record
  have room : (2 : Nat) ^ 16 < sizeLimit := Nat.pow_lt_pow_right (by decide) (by decide)
  let record : ByteView := ⟨parts.record,by omega⟩
  let authData : StdVector UInt8 :=
    ⟨handshakeAuthData (localNodeAddr crypto config) parts.signature parts.ephCompressed parts.record,by omega⟩
  have few : authData.items.length < 65536 := by
    show (handshakeAuthData ..).length < _
    omega
  have encoded : encodePacket crypto.aesCtr draws.maskingIv kFlagHandshake parts.nonce authData.items []
      (localNodeAddr crypto recipient) = .ok (parts.front,parts.header) := by
    rw [localNodeAddr,← identified]
    exact made.encoded
  exact ⟨record,authData,rfl,decodePacket_encodePacket encoded few spelled,parseHandshakeAuth_made rfl⟩

theorem HandshakeParts.Made.checked {parts : HandshakeParts} (text : AddressText) (made : parts.Made crypto config draws pending peer)
    (correct : crypto.Correct valid point) (initiatorKey : KeyPair crypto valid point config.privateKey config.publicKey)
    (recipientKey : KeyPair crypto valid point recipient.privateKey recipient.publicKey)
    (ephemeralKey : KeyPair crypto valid point parts.ephPrivate parts.ephPublic)
    (identified : peer.nodeId = recipient.publicKey) (requested : pending.peer.nodeId = recipient.publicKey)
    (forInitiator : challenge.remoteNodeAddr = localNodeAddr crypto config)
    (same : pending.challengeData = challenge.challengeData) {record : ByteView} (recorded : record.bytes = parts.record)
    (parsed : parseHandshakeAuth view.authData =
      .ok ⟨localNodeAddr crypto config,parts.signature.toList,parts.ephCompressed.toList,record⟩) :
    verifyIdSignature crypto config.publicKey parts.signature.toList challenge.challengeData parts.ephCompressed.toList
        (localNodeAddr crypto recipient) = true ∧ checkHandshake crypto text recipient (some challenge) view =
        .ok ⟨(parts.keys crypto config pending peer).2,(parts.keys crypto config pending peer).1,localNodeAddr crypto config,
          config.publicKey,[]⟩ := by
  have signed := made.signed
  rw [identified,same] at signed
  have verified : verifyIdSignature crypto config.publicKey parts.signature.toList challenge.challengeData
      parts.ephCompressed.toList (localNodeAddr crypto recipient) = true := id_signature_verifies correct initiatorKey signed
  have compressed := made.compressed
  rw [ephemeralKey.compressed correct] at compressed
  have agreed := made.agreed
  rw [requested,← shared_agrees correct recipientKey ephemeralKey.usable,Except.ok.inj compressed] at agreed
  have enr := made.recorded
  rw [← recorded] at enr
  obtain ⟨parsedRecord,verifiedRecord,decoded,authentic,named⟩ := local_record_accepted correct initiatorKey text enr
  have present : record.bytes ≠ [] := by
    obtain ⟨_,_,_,_,_,_,spelled,_⟩ := makeLocalEnrRecord_ok enr
    rw [spelled,RlpSpec.encodeList]
    exact List.append_ne_nil_of_left_ne_nil (List.ne_nil_of_length_pos (RlpSpec.header_pos _ _ _)) _
  refine ⟨verified,?_⟩
  have accepted := bind_ok.mpr ⟨_,decoded,authentic⟩
  have own : deriveNodeAddress crypto config.publicKey = localNodeAddr crypto config := rfl
  unfold checkHandshake
  rw [parsed]
  dsimp only
  rw [if_neg (not_not_intro forInitiator.symm),if_neg present,accepted]
  dsimp only
  rw [named,if_neg (not_not_intro own),if_neg (not_not_intro verified),agreed]
  rw [HandshakeParts.keys,identified,same]
  rfl

theorem acceptHandshake_session (stored : client.sessions sender.key = some session) :
    (acceptHandshake client session sender plaintext).verdict = .handshake ∧
      ∃ lastReqId,(acceptHandshake client session sender plaintext).client.sessions sender.key =
        some { session with lastReqId := lastReqId } := by
  unfold acceptHandshake
  split
  · exact ⟨rfl,session.lastReqId,stored⟩
  split
  · split
    · exact ⟨rfl,session.lastReqId,stored⟩
    · rename_i reqId _
      exact ⟨rfl,reqId,Function.update_self ..⟩
  · exact ⟨rfl,session.lastReqId,stored⟩

end agreement

-- The recipient challenges a request, the initiator's send_findnode answers,
-- and the answer arrives while that challenge is kept. In between the clients
-- may do anything else.
structure Exchange (crypto : Crypto) (text : AddressText) (initiator recipient : Discv5Config) where
  initiatorEnd : Endpoint
  recipientEnd : Endpoint
  peer : ValidatedPeer
  requestNonce : FixedBytes 12
  challengeDraws : Draws
  answerDraws : Draws
  challenging : Discv5Client
  challenged : Discv5Client
  answering : Discv5Client
  receiving : Discv5Client
  whoareyou : ByteView
  answer : ByteView
  sentChallenge : .datagram initiatorEnd.key whoareyou.bytes ∈
    (sendWhoareyou crypto challengeDraws challenging initiatorEnd (localNodeAddr crypto initiator) requestNonce).events
  gotChallenge : (handlePacket crypto text initiator challenged whoareyou recipientEnd).verdict = .challenged
  located : peer.key = recipientEnd.key
  waiting : answering.pendingRequests peer.key =
    (handlePacket crypto text initiator challenged whoareyou recipientEnd).client.pendingRequests peer.key
  fresh : answering.sessions peer.key = none
  sentAnswer : .datagram peer.key answer.bytes ∈ (sendFindnode crypto initiator answerDraws answering peer).events
  outstanding : receiving.sentChallenges initiatorEnd.key =
    (sendWhoareyou crypto challengeDraws challenging initiatorEnd (localNodeAddr crypto initiator) requestNonce).client.sentChallenges
      initiatorEnd.key

namespace Exchange

end Exchange

-- A stand-in for the primitives that keeps every law: a public key is the
-- private one written out, and a sealed text ends with the key.
def foldDigest (bytes : List UInt8) : Hash256 :=
  .ofNat 32 (bytes.foldl (fun sum byte => (257 * sum + byte.toNat + 1) % 2 ^ 256) 0)

def side (one other : FixedBytes 32) : FixedBytes 64 :=
  ⟨one.toList ++ other.toList,by rw [List.length_append,one.toList_length,other.toList_length]⟩

def writtenOut (key : FixedBytes 32) : FixedBytes 64 := side key key

def keySum (one other : FixedBytes 32) : FixedBytes 32 :=
  .ofNat 32 (BigEndian.value one.toList + BigEndian.value other.toList)

def standIn : Crypto where
  keccak256 := foldDigest
  contextCreate := true
  decompressContextCreate := true
  Pubkey := FixedBytes 32
  Signature := FixedBytes 64
  pubkeyParse := fun bytes => if bytes.head = 0x02 then some bytes.tail else none
  signatureParseCompact := some
  ecdsaVerify := fun sig hash key => decide (sig = side hash key)
  pubkeySerialize := fun key => kUncompressedPubKeyPrefix ::ᵥ writtenOut key
  sha256 := foldDigest
  hmacSha256 := fun key bytes => foldDigest (key ++ bytes)
  uncompressedParse := fun bytes =>
    let key : FixedBytes 32 := .copy 32 bytes.toList.tail
    if kUncompressedPubKeyPrefix ::ᵥ writtenOut key = bytes then some key else none
  compressedSerialize := fun key => 0x02 ::ᵥ key
  tweakMul := fun one other => some (keySum one other)
  signRecoverable := fun hash key => some (side hash key)
  aesCtr := fun key iv => some fun i => key.toList.getD (i % 16) 0 + iv.toList.getD (i % 16) 0
  sealGcm := fun key _ plaintext _ => if plaintext.length < sizeLimit then some (plaintext ++ key.toList) else none
  openGcm := fun key _ ciphertext _ =>
    let plaintext := ciphertext.take (ciphertext.length - kGcmTagBytes)
    if fits : plaintext.length < sizeLimit then
      if ciphertext.drop (ciphertext.length - kGcmTagBytes) = key.toList then some ⟨plaintext,fits⟩ else none
    else none

def wordKey (n : Nat) : FixedBytes 32 := .ofNat 32 n

def nodeConfig (n : Nat) : Discv5Config := ⟨wordKey n,writtenOut (wordKey n),.v4 (.zeros 4),30303⟩

def nodeEnd (n : Nat) : Endpoint := ⟨"10.0.0.1",BitVec.ofNat 16 n⟩

def nodePeer (n : Nat) : ValidatedPeer := ⟨(nodeConfig n).publicKey,(nodeEnd n).address,(nodeEnd n).port,30303,none⟩

def goodDraws (n : Nat) : Draws :=
  ⟨some (.copy 12 [UInt8.ofNat n]),some (.copy 16 [UInt8.ofNat n,1]),some (.zeros 20),some (.copy 16 [UInt8.ofNat n,2]),
    some (wordKey (n + 100),writtenOut (wordKey (n + 100))),some (BitVec.ofNat 16 n),true⟩

def Sent.packet (sent : Sent) : List UInt8 :=
  (sent.events.findSome? fun event => match event with
    | .datagram _ packet => some packet
    | _ => none).getD []

def request : Sent := sendFindnode standIn (nodeConfig 1) (goodDraws 1) .new (nodePeer 2)

def requestData : ByteView := receiveBuffer request.packet

def whoareyouSent : Sent :=
  sendWhoareyou standIn (goodDraws 2) .new (nodeEnd 1) (localNodeAddr standIn (nodeConfig 1)) (.copy 12 [1])

def whoareyouData : ByteView := receiveBuffer whoareyouSent.packet

def challengedNode : Handled := handlePacket standIn dottedText (nodeConfig 1) request.client whoareyouData (nodeEnd 2)

def answerSent : Sent := sendFindnode standIn (nodeConfig 1) (goodDraws 3) challengedNode.client (nodePeer 2)

def answerData : ByteView := receiveBuffer answerSent.packet

def compress (pubkey : NodeId) : FixedBytes 33 := (0x02 + pubkey.toList.getLastD 0 % 2) ::ᵥ FixedBytes.copy 32 pubkey.toList

def prk : Hash256 := .ofNat 32 0xed1f1948245ef6a7a848b3c9539c50c5b458304e82140d4a18d24abcf9914ed0

def keys : List PrivateKey := [1,2,3].map wordKey

end EvmRelay.Discv5
