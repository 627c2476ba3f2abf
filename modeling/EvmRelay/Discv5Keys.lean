import EvmRelay.Discv5Packet

namespace EvmRelay.Discv5
open Enr

abbrev PrivateKey := FixedBytes 32
abbrev kUncompressedPubKeyPrefix : UInt8 := 0x04
abbrev kHkdfFirstBlockCounter : UInt8 := 0x01
abbrev kGcmTagBytes : Nat := 16

-- What the client takes from OpenSSL and libsecp256k1 besides what the record
-- parser does. A call that can fail there has an option as its result.
structure Crypto extends Enr.Crypto where
  sha256 : List UInt8 → Hash256
  hmacSha256 : List UInt8 → List UInt8 → Hash256
  uncompressedParse : FixedBytes 65 → Option Pubkey
  compressedSerialize : Pubkey → FixedBytes 33
  tweakMul : Pubkey → PrivateKey → Option Pubkey
  signRecoverable : Hash256 → PrivateKey → Option (FixedBytes 64)
  aesCtr : AesCtr
  sealGcm : FixedBytes 16 → FixedBytes 12 → List UInt8 → List UInt8 → Option (List UInt8)
  openGcm : FixedBytes 16 → FixedBytes 12 → List UInt8 → List UInt8 → Option (StdVector UInt8)

section keys
variable (crypto : Crypto)

def deriveNodeAddress (publicKey : NodeId) : NodeAddress := crypto.keccak256 publicKey.toList

def hkdfExpand32 (salt ikm info : List UInt8) : Hash256 :=
  let prk := crypto.hmacSha256 salt ikm
  crypto.hmacSha256 prk.toList (info ++ [kHkdfFirstBlockCounter])

def parsePublicKey (publicKey : NodeId) : Except Discv5Error crypto.Pubkey :=
  if ¬ crypto.contextCreate then .error .kContextCreationFailed
  else
    match crypto.uncompressedParse (kUncompressedPubKeyPrefix ::ᵥ publicKey) with
    | none => .error .kEnrInvalidSecp256k1Key
    | some pubkey => .ok pubkey

def compressPublicKey (publicKey : NodeId) : Except Discv5Error (FixedBytes 33) := do
  let pubkey ← parsePublicKey crypto publicKey
  return crypto.compressedSerialize pubkey

def sharedPoint (pubkey : crypto.Pubkey) (privateKey : PrivateKey) : Except Discv5Error (FixedBytes 33) :=
  match crypto.tweakMul pubkey privateKey with
  | none => .error .kContextCreationFailed
  | some shared => .ok (crypto.compressedSerialize shared)

def sharedSecretFromUncompressedPubkey (remoteNodeId : NodeId) (privateKey : PrivateKey) : Except Discv5Error (FixedBytes 33) := do
  let pubkey ← parsePublicKey crypto remoteNodeId
  sharedPoint crypto pubkey privateKey

def sharedSecretFromCompressedPubkey (remotePubkey : List UInt8) (privateKey : PrivateKey) : Except Discv5Error (FixedBytes 33) :=
  if size : remotePubkey.length = kCompressedKeyBytes then
    if ¬ crypto.contextCreate then .error .kContextCreationFailed
    else
      match crypto.pubkeyParse ⟨remotePubkey,size⟩ with
      | none => .error .kEnrInvalidSecp256k1Key
      | some pubkey => sharedPoint crypto pubkey privateKey
  else .error .kEnrInvalidSecp256k1Key

def idSignatureInput (challengeData ephPubkey : List UInt8) (destinationNodeAddr : NodeAddress) : List UInt8 :=
  ascii "discovery v5 identity proof" ++ (challengeData ++ (ephPubkey ++ destinationNodeAddr.toList))

def makeIdSignature (privateKey : PrivateKey) (challengeData ephPubkey : List UInt8) (destinationNodeAddr : NodeAddress) :
    Except Discv5Error (FixedBytes 64) :=
  let digest := crypto.sha256 (idSignatureInput challengeData ephPubkey destinationNodeAddr)
  if ¬ crypto.contextCreate then .error .kContextCreationFailed
  else
    match crypto.signRecoverable digest privateKey with
    | none => .error .kContextCreationFailed
    | some compact => .ok compact

def verifyIdSignature (nodeId : NodeId) (signature challengeData ephPubkey : List UInt8) (destinationNodeAddr : NodeAddress) : Bool :=
  if size : signature.length = kEnrSigBytes then
    let digest := crypto.sha256 (idSignatureInput challengeData ephPubkey destinationNodeAddr)
    match parsePublicKey crypto nodeId with
    | .error _ => false
    | .ok pubkey =>
      match crypto.signatureParseCompact ⟨signature,size⟩ with
      | none => false
      | some sig => crypto.ecdsaVerify sig digest pubkey
  else false

def deriveSessionKeys (sharedSecret : FixedBytes 33) (challengeData : List UInt8) (firstId secondId : NodeAddress) :
    FixedBytes 16 × FixedBytes 16 :=
  let info := ascii "discovery v5 key agreement" ++ (firstId.toList ++ secondId.toList)
  let okm := hkdfExpand32 crypto challengeData sharedSecret.toList info
  (.copy 16 okm.toList,.copy 16 (okm.toList.drop 16))

def encryptGcm (key : FixedBytes 16) (nonce : FixedBytes 12) (plaintext authData : List UInt8) : Except Discv5Error (List UInt8) :=
  match crypto.sealGcm key nonce plaintext authData with
  | none => .error .kContextCreationFailed
  | some ciphertext => .ok ciphertext

def decryptGcm (key : FixedBytes 16) (nonce : FixedBytes 12) (ciphertext authData : List UInt8) :
    Except Discv5Error (StdVector UInt8) :=
  if ciphertext.length < kGcmTagBytes then .error .kNetworkReceiveFailed
  else
    match crypto.openGcm key nonce ciphertext authData with
    | none => .error .kNetworkReceiveFailed
    | some plaintext => .ok plaintext

end keys

-- The primitives do what they are for, with the private keys that are valid: in
-- libsecp256k1 those between zero and the order of the group. `point` is the public
-- key of a private one.
structure Crypto.Correct (crypto : Crypto) (valid : PrivateKey → Prop) (point : PrivateKey → crypto.Pubkey) : Prop where
  contexts : crypto.contextCreate = true ∧ crypto.decompressContextCreate = true
  ecdh : ∀ one other,valid one → valid other → crypto.tweakMul (point one) other = crypto.tweakMul (point other) one
  compressed : ∀ privateKey,valid privateKey →
    crypto.pubkeyParse (crypto.compressedSerialize (point privateKey)) = some (point privateKey)
  present : ∀ privateKey,valid privateKey → crypto.compressedSerialize (point privateKey) ≠ .zeros 33
  uncompressed : ∀ publicKey pubkey,crypto.uncompressedParse (kUncompressedPubKeyPrefix ::ᵥ publicKey) = some pubkey →
    crypto.pubkeySerialize pubkey = kUncompressedPubKeyPrefix ::ᵥ publicKey
  signed : ∀ digest privateKey compact,valid privateKey → crypto.signRecoverable digest privateKey = some compact →
    ∃ sig,crypto.signatureParseCompact compact = some sig ∧ crypto.ecdsaVerify sig digest (point privateKey) = true

section agreement

structure KeyPair (crypto : Crypto) (valid : PrivateKey → Prop) (point : PrivateKey → crypto.Pubkey) (privateKey : PrivateKey)
    (publicKey : NodeId) : Prop where
  usable : valid privateKey
  derived : crypto.uncompressedParse (kUncompressedPubKeyPrefix ::ᵥ publicKey) = some (point privateKey)

theorem KeyPair.parsed (correct : crypto.Correct valid point) (pair : KeyPair crypto valid point privateKey publicKey) :
    parsePublicKey crypto publicKey = .ok (point privateKey) := by
  unfold parsePublicKey
  rw [if_neg (by simp [correct.contexts.1]),pair.derived]

theorem KeyPair.compressed (correct : crypto.Correct valid point) (pair : KeyPair crypto valid point privateKey publicKey) :
    compressPublicKey crypto publicKey = .ok (crypto.compressedSerialize (point privateKey)) := by
  rw [compressPublicKey,pair.parsed correct]
  rfl

theorem shared_agrees (correct : crypto.Correct valid point) (static : KeyPair crypto valid point remotePrivate remotePublic)
    (drawn : valid ephemeral) :
    sharedSecretFromCompressedPubkey crypto (crypto.compressedSerialize (point ephemeral)).toList remotePrivate =
      sharedSecretFromUncompressedPubkey crypto remotePublic ephemeral := by
  have whole : (⟨(crypto.compressedSerialize (point ephemeral)).toList,List.Vector.toList_length _⟩ : FixedBytes 33) =
      crypto.compressedSerialize (point ephemeral) := rfl
  unfold sharedSecretFromCompressedPubkey sharedSecretFromUncompressedPubkey
  rw [dif_pos (List.Vector.toList_length _),if_neg (by simp [correct.contexts.1]),static.parsed correct,whole,
    correct.compressed _ drawn,ok_bind]
  dsimp only
  rw [sharedPoint,sharedPoint,correct.ecdh _ _ drawn static.usable]

theorem id_signature_verifies (correct : crypto.Correct valid point) (pair : KeyPair crypto valid point privateKey publicKey)
    (signed : makeIdSignature crypto privateKey challengeData ephPubkey destination = .ok compact) :
    verifyIdSignature crypto publicKey compact.toList challengeData ephPubkey destination = true := by
  have whole : (⟨compact.toList,compact.toList_length⟩ : FixedBytes 64) = compact := rfl
  unfold makeIdSignature at signed
  rw [if_neg (by simp [correct.contexts.1])] at signed
  split at signed
  · cases signed
  rename_i drawn
  cases signed
  obtain ⟨sig,parsed,verified⟩ := correct.signed _ _ _ pair.usable drawn
  unfold verifyIdSignature
  rw [dif_pos compact.toList_length,pair.parsed correct,whole,parsed]
  exact verified

end agreement

end EvmRelay.Discv5
