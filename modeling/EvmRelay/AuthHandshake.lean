import EvmRelay.Ecies
import EvmRelay.RlpReader
import EvmRelay.RlpWriter
import EvmRelay.SocketTransport

namespace EvmRelay.Rlpx
open Rlp RlpSpec

abbrev kEcdsaSigSize : Nat := 65
abbrev kNonceSize : Nat := 32
abbrev kPublicKeySize : Nat := 64
abbrev kAuthVersionSize : Nat := 1
abbrev kAuthVersion : Nat := 4
abbrev kEip8LengthPrefixSize : Nat := 2
abbrev kMaxEip8HandshakePacketSize : Nat := 2048

-- The peer's ephemeral key is none as long as nothing has been written to it:
-- the source leaves the array uninitialised.
structure AuthKeyMaterial where
  peerPublicKey : FixedBytes 64
  peerEphemeralPublicKey : Option (FixedBytes 64)
  localEphemeralPublicKey : FixedBytes 64
  localEphemeralPrivateKey : FixedBytes 32
  initiatorNonce : FixedBytes 32
  recipientNonce : FixedBytes 32
  initiatorAuthMessage : List UInt8
  recipientAckMessage : List UInt8
  deriving DecidableEq

structure HandshakeConfig where
  localPublicKey : FixedBytes 64
  localPrivateKey : FixedBytes 32
  peerPublicKey : Option (FixedBytes 64)

structure HandshakeResult where
  keyMaterial : AuthKeyMaterial
  frameSecrets : FrameSecrets
  deriving DecidableEq

structure KeyPair where
  publicKey : FixedBytes 64
  privateKey : FixedBytes 32

-- What a handshake draws at random. Its ephemeral keys and its nonce can fail.
structure Randomness where
  keypair : Option KeyPair
  nonce : Option (FixedBytes 32)
  padding : FixedBytes 100
  eciesKey : FixedBytes 32
  eciesIv : FixedBytes 16

-- What the arrays hold that are read without having been written.
structure Indeterminate where
  peerEphemeralPublicKey : FixedBytes 64
  aesSecret : FixedBytes 32
  macSecret : FixedBytes 32

def lengthPrefix (size : Nat) : List UInt8 := BigEndian.fixed 2 size

def packetLength (lenBytes : List UInt8) : Nat := (lenBytes.getD 0 0).toNat <<< 8 ||| (lenBytes.getD 1 0).toNat

def authMsgV4 (signature : FixedBytes 65) (publicKey : FixedBytes 64) (nonce : FixedBytes 32) :
    Except EncodingError (List UInt8) :=
  finalizeEncoding (writeList do
    addBytes signature.toList
    addBytes publicKey.toList
    addBytes nonce.toList
    addUint64 (.ofNat 64 kAuthVersion))

def readAckField (count : Nat) (v : ByteView) : Except AuthError (FixedBytes count × ByteView) :=
  match readBytes v with
  | .error _ => .error .kInvalidAckMessage
  | .ok (bytes,rest) =>
    if sized : bytes.length = count then .ok (⟨bytes,sized⟩,rest) else .error .kInvalidAckMessage

def readAckFields (v : ByteView) : Except AuthError (FixedBytes 64 × FixedBytes 32) :=
  match readListHeaderBytes v with
  | .error _ => .error .kInvalidAckMessage
  | .ok (_,view) => do
    let (pubkey,view) ← readAckField kPublicKeySize view
    let (nonce,_) ← readAckField kNonceSize view
    .ok (pubkey,nonce)

def receivePacket (transport : SocketTransport) :
    Except SessionError (List UInt8 × List UInt8) × SocketTransport :=
  match transport.readExact kEip8LengthPrefixSize with
  | (.error _,transport) => (.error .kAuthenticationFailed,transport)
  | (.ok lenBytes,transport) =>
    if packetLength lenBytes > kMaxEip8HandshakePacketSize then (.error .kAuthenticationFailed,transport)
    else
      match transport.readExact (packetLength lenBytes) with
      | (.error _,transport) => (.error .kAuthenticationFailed,transport)
      | (.ok body,transport) => (.ok (lenBytes,body),transport)

namespace AuthHandshake

variable (crypto : AuthCrypto)

def createAuthMessage (random : Randomness) (localPrivateKey : FixedBytes 32) (localPublicKey : FixedBytes 64)
    (ephemeralPrivateKey nonce : FixedBytes 32) (remotePublicKey : FixedBytes 64) : Except AuthError (List UInt8) :=
  match crypto.sharedSecret remotePublicKey localPrivateKey with
  | none => .error .kSharedSecretFailed
  | some token =>
    match crypto.signRecoverable (token.map₂ (· ^^^ ·) nonce) ephemeralPrivateKey with
    | none => .error .kSignatureInvalid
    | some signature =>
      match authMsgV4 signature localPublicKey nonce with
      | .error _ => .error .kSignatureInvalid
      | .ok encoded =>
        let rlpBody := encoded ++ random.padding.toList
        Ecies.encrypt crypto random.eciesKey random.eciesIv rlpBody remotePublicKey
          (lengthPrefix (rlpBody.length + Ecies.kEciesOverheadSize))

-- The key and the nonce that parse_auth_message takes from the message, which
-- it reads as signature, key hash, key, nonce and version.
def parseAuthMessage (encryptedAuth : List UInt8) (localPrivateKey : FixedBytes 32) (sharedMacData : List UInt8) :
    Except AuthError (FixedBytes 64 × FixedBytes 32) :=
  match Ecies.decrypt crypto encryptedAuth localPrivateKey sharedMacData with
  | .error error => .error error
  | .ok authBody =>
    if authBody.length < kEcdsaSigSize + kNonceSize + kPublicKeySize + kNonceSize + kAuthVersionSize then
      .error .kInvalidAuthMessage
    else
      .ok (.copy 64 (authBody.drop (kEcdsaSigSize + kNonceSize)),
        .copy 32 (authBody.drop (kEcdsaSigSize + kNonceSize + kPublicKeySize)))

def createAckMessage (random : Randomness) (ephemeralPublicKey : FixedBytes 64) (nonce : FixedBytes 32)
    (remotePublicKey : FixedBytes 64) : Except AuthError (List UInt8) :=
  Ecies.encrypt crypto random.eciesKey random.eciesIv
    (ephemeralPublicKey.toList ++ nonce.toList ++ [UInt8.ofNat kAuthVersion]) remotePublicKey []

def parseAckMessage (encryptedAck : List UInt8) (localPrivateKey : FixedBytes 32) (sharedMacData : List UInt8) :
    Except AuthError (FixedBytes 64 × FixedBytes 32) :=
  match decrypted : Ecies.decrypt crypto encryptedAck localPrivateKey sharedMacData with
  | .error error => .error error
  | .ok ackPlain => readAckFields ⟨ackPlain,Ecies.decrypt_fits decrypted⟩

def keySchedule (ecdheSecret : FixedBytes 32) (keys : AuthKeyMaterial) (isInitiator : Bool) : FrameSecrets :=
  let nonceHash := crypto.keccak256 (keys.recipientNonce.toList ++ keys.initiatorNonce.toList)
  let sharedSecret := crypto.keccak256 (ecdheSecret.toList ++ nonceHash.toList)
  let aesSecret := crypto.keccak256 (ecdheSecret.toList ++ sharedSecret.toList)
  let macSecret := crypto.keccak256 (ecdheSecret.toList ++ aesSecret.toList)
  let macSeedBytes (nonce : FixedBytes 32) (msg : List UInt8) := (macSecret.map₂ (· ^^^ ·) nonce).toList ++ msg
  let auth := macSeedBytes keys.recipientNonce keys.initiatorAuthMessage
  let ack := macSeedBytes keys.initiatorNonce keys.recipientAckMessage
  if isInitiator then ⟨aesSecret,macSecret,auth,ack⟩ else ⟨aesSecret,macSecret,ack,auth⟩

-- There is no way to report that the ECDH failed.
def deriveFrameSecrets (memory : Indeterminate) (keys : AuthKeyMaterial) (isInitiator : Bool) : FrameSecrets :=
  let peerEphemeralPublicKey := keys.peerEphemeralPublicKey.getD memory.peerEphemeralPublicKey
  match crypto.sharedSecret peerEphemeralPublicKey keys.localEphemeralPrivateKey with
  | none => ⟨memory.aesSecret,memory.macSecret,[],[]⟩
  | some ecdheSecret => keySchedule crypto ecdheSecret keys isInitiator

def initiate (config : HandshakeConfig) (random : Randomness) (keypair : KeyPair) (localNonce : FixedBytes 32)
    (peerPublicKey : FixedBytes 64) (transport : SocketTransport) :
    Except SessionError AuthKeyMaterial × SocketTransport :=
  match createAuthMessage crypto random config.localPrivateKey config.localPublicKey keypair.privateKey localNonce
      peerPublicKey with
  | .error _ => (.error .kAuthenticationFailed,transport)
  | .ok authCiphertext =>
    let authWire := lengthPrefix authCiphertext.length ++ authCiphertext
    match transport.writeAll authWire with
    | (.error _,transport) => (.error .kAuthenticationFailed,transport)
    | (.ok _,transport) =>
      match receivePacket transport with
      | (.error error,transport) => (.error error,transport)
      | (.ok (lenBytes,ack),transport) =>
        match parseAckMessage crypto ack config.localPrivateKey lenBytes with
        | .error _ => (.error .kAuthenticationFailed,transport)
        | .ok (peerEphemeralPublicKey,recipientNonce) =>
          (.ok ⟨peerPublicKey,some peerEphemeralPublicKey,keypair.publicKey,keypair.privateKey,localNonce,recipientNonce,
            authWire,lenBytes ++ ack⟩,transport)

def respond (config : HandshakeConfig) (random : Randomness) (keypair : KeyPair) (localNonce : FixedBytes 32)
    (transport : SocketTransport) : Except SessionError AuthKeyMaterial × SocketTransport :=
  match receivePacket transport with
  | (.error error,transport) => (.error error,transport)
  | (.ok (lenBytes,auth),transport) =>
    match parseAuthMessage crypto auth config.localPrivateKey lenBytes with
    | .error _ => (.error .kAuthenticationFailed,transport)
    | .ok (peerPublicKey,initiatorNonce) =>
      match createAckMessage crypto random keypair.publicKey localNonce peerPublicKey with
      | .error _ => (.error .kAuthenticationFailed,transport)
      | .ok ackBytes =>
        match transport.writeAll (lengthPrefix ackBytes.length ++ ackBytes) with
        | (.error _,transport) => (.error .kAuthenticationFailed,transport)
        | (.ok _,transport) =>
          (.ok ⟨peerPublicKey,none,keypair.publicKey,keypair.privateKey,initiatorNonce,localNonce,auth,ackBytes⟩,
            transport)

def exchangeKeys (config : HandshakeConfig) (random : Randomness) (keypair : KeyPair) (localNonce : FixedBytes 32)
    (transport : SocketTransport) : Except SessionError AuthKeyMaterial × SocketTransport :=
  match config.peerPublicKey with
  | some peerPublicKey => initiate crypto config random keypair localNonce peerPublicKey transport
  | none => respond crypto config random keypair localNonce transport

def execute (config : HandshakeConfig) (random : Randomness) (memory : Indeterminate) (transport : SocketTransport) :
    Except SessionError HandshakeResult × SocketTransport :=
  match random.keypair with
  | none => (.error .kAuthenticationFailed,transport)
  | some keypair =>
    match random.nonce with
    | none => (.error .kAuthenticationFailed,transport)
    | some localNonce =>
      match exchangeKeys crypto config random keypair localNonce transport with
      | (.error error,transport) => (.error error,transport)
      | (.ok keyMaterial,transport) =>
        (.ok ⟨keyMaterial,deriveFrameSecrets crypto memory keyMaterial config.peerPublicKey.isSome⟩,transport)

end AuthHandshake

structure Packet (incoming lenBytes body rest : List UInt8) : Prop where
  announced : lenBytes.length = kEip8LengthPrefixSize
  sized : body.length = packetLength lenBytes
  small : packetLength lenBytes ≤ kMaxEip8HandshakePacketSize
  spelled : incoming = lenBytes ++ (body ++ rest)

theorem packetLength_lengthPrefix (small : size < 2 ^ 16) : packetLength (lengthPrefix size) = size := by
  have low : size % 256 < 2 ^ 8 := Nat.mod_lt _ (by decide)
  change (UInt8.ofNat (size / 256)).toNat <<< 8 ||| (UInt8.ofNat size).toNat = size
  rw [UInt8.toNat_ofNat',UInt8.toNat_ofNat',← Nat.shiftLeft_add_eq_or_of_lt low,Nat.shiftLeft_eq]
  omega

theorem receivePacket_ok (received : receivePacket transport = (.ok (lenBytes,body),after)) :
    Packet transport.incoming lenBytes body after.incoming := by
  unfold receivePacket at received
  split at received
  · cases received
  rename_i found behind first
  split_ifs at received with small
  · cases received
  split at received
  · cases received
  rename_i second
  cases received
  obtain ⟨announced,spelled⟩ := SocketTransport.readExact_ok first
  obtain ⟨sized,between⟩ := SocketTransport.readExact_ok second
  exact ⟨announced,sized,Nat.not_lt.mp small,by rw [spelled,between]⟩

theorem Packet.same (one : Packet incoming lenBytes body rest) (other : Packet incoming lenBytes' body' rest') :
    lenBytes = lenBytes' ∧ body = body' := by
  obtain ⟨rfl,behind⟩ := List.append_inj (one.spelled.symm.trans other.spelled) (one.announced.trans other.announced.symm)
  obtain ⟨rfl,_⟩ := List.append_inj behind (one.sized.trans other.sized.symm)
  exact ⟨rfl,rfl⟩

def AckForm (plain : List UInt8) (key : FixedBytes 64) (nonce : FixedBytes 32) : Prop :=
  ∃ size more,plain = listHeader size ++ (encodeString key.toList ++ (encodeString nonce.toList ++ more)) ∧
    size ≤ (encodeString key.toList ++ (encodeString nonce.toList ++ more)).length

theorem readAckField_exact (v rest : ByteView) (field : FixedBytes count) :
    readAckField count v = .ok (field,rest) ↔ v.bytes = encodeString field.toList ++ rest.bytes := by
  rw [← readBytes_exact]
  unfold readAckField
  cases readBytes v with
  | error error => simp
  | ok taken =>
    obtain ⟨bytes,behind⟩ := taken
    dsimp only
    constructor
    · intro read
      split at read
      · cases read
        rfl
      · cases read
    · intro read
      cases read
      exact dif_pos field.toList_length

theorem readAckFields_exact : readAckFields v = .ok (key,nonce) ↔ AckForm v.bytes key nonce := by
  unfold readAckFields
  constructor
  · intro read
    split at read
    · cases read
    rename_i size view headed
    obtain ⟨⟨_,afterKey⟩,readKey,read⟩ := bind_ok.mp read
    obtain ⟨⟨_,afterNonce⟩,readNonce,read⟩ := bind_ok.mp read
    cases read
    obtain ⟨spelled,room⟩ := (readListHeaderBytes_exact ..).mp headed
    have keyed := (readAckField_exact ..).mp readKey
    have nonced := (readAckField_exact afterKey afterNonce nonce).mp readNonce
    rw [nonced] at keyed
    rw [ByteView.length,keyed] at room
    exact ⟨size,afterNonce.bytes,by rw [spelled,keyed],room⟩
  · rintro ⟨size,more,spelled,room⟩
    obtain ⟨view,headed,inside⟩ := listHeader_reads spelled room
    obtain ⟨afterKey,inside,behindKey⟩ := view.cut inside
    obtain ⟨afterNonce,behindKey,_⟩ := afterKey.cut behindKey
    rw [headed]
    dsimp only
    rw [(readAckField_exact view afterKey key).mpr inside,ok_bind,(readAckField_exact afterKey afterNonce nonce).mpr behindKey,ok_bind]

namespace AuthHandshake

theorem parseAckMessage_exact {ack : List UInt8} (nonce : FixedBytes 32) : parseAckMessage crypto ack priv macData = .ok (key,nonce) ↔
      ∃ plain,Ecies.decrypt crypto ack priv macData = .ok plain ∧ AckForm plain key nonce := by
  unfold parseAckMessage
  split
  · rename_i error failed
    simp [failed]
  · rename_i plain decrypted
    rw [readAckFields_exact]
    simp [decrypted]

theorem initiate_ok (initiated : initiate crypto config random keypair localNonce peer transport = (.ok keys,after)) :
    ∃ authCiphertext lenBytes ack key nonce,
      createAuthMessage crypto random config.localPrivateKey config.localPublicKey keypair.privateKey localNonce peer =
        .ok authCiphertext ∧ Packet transport.incoming lenBytes ack after.incoming ∧
      parseAckMessage crypto ack config.localPrivateKey lenBytes = .ok (key,nonce) ∧
      keys = ⟨peer,some key,keypair.publicKey,keypair.privateKey,localNonce,nonce,
        lengthPrefix authCiphertext.length ++ authCiphertext,lenBytes ++ ack⟩ := by
  unfold initiate at initiated
  split at initiated
  · cases initiated
  rename_i authCiphertext created
  dsimp only at initiated
  split at initiated
  · cases initiated
  rename_i written wrote
  split at initiated
  · cases initiated
  rename_i lenBytes ack behind received
  split at initiated
  · cases initiated
  rename_i key nonce parsed
  cases initiated
  have same := SocketTransport.writeAll_incoming wrote
  have packet := receivePacket_ok received
  rw [same] at packet
  exact ⟨authCiphertext,lenBytes,ack,key,nonce,created,packet,parsed,rfl⟩

theorem respond_ok (responded : respond crypto config random keypair localNonce transport = (.ok keys,after)) :
    keys.peerEphemeralPublicKey = none := by
  unfold respond at responded
  split at responded
  · cases responded
  split at responded
  · cases responded
  split at responded
  · cases responded
  split at responded
  · cases responded
  cases responded
  rfl

theorem execute_ok (executed : (execute crypto config random memory transport).1 = .ok result) :
    ∃ keypair localNonce after,random.keypair = some keypair ∧ random.nonce = some localNonce ∧
      exchangeKeys crypto config random keypair localNonce transport = (.ok result.keyMaterial,after) ∧
      result.frameSecrets = deriveFrameSecrets crypto memory result.keyMaterial config.peerPublicKey.isSome := by
  unfold execute at executed
  split at executed
  · cases executed
  rename_i keypair drawn
  split at executed
  · cases executed
  rename_i localNonce nonce
  split at executed
  · cases executed
  rename_i keys after exchanged
  cases executed
  exact ⟨keypair,localNonce,after,drawn,nonce,exchanged,rfl⟩

variable (crypto)

def AckNames (config : HandshakeConfig) (incoming : List UInt8) (key : FixedBytes 64) : Prop :=
  config.peerPublicKey.isSome ∧
    ∃ lenBytes ack rest plain nonce,Packet incoming lenBytes ack rest ∧
      Ecies.decrypt crypto ack config.localPrivateKey lenBytes = .ok plain ∧ AckForm plain key nonce

def SecretsDerived (config : HandshakeConfig) (random : Randomness) (result : HandshakeResult) : Prop :=
  ∃ keypair key ecdheSecret,random.keypair = some keypair ∧ result.keyMaterial.peerEphemeralPublicKey = some key ∧
    crypto.sharedSecret key keypair.privateKey = some ecdheSecret ∧
    result.frameSecrets = keySchedule crypto ecdheSecret result.keyMaterial config.peerPublicKey.isSome ∧
    result.frameSecrets.egressMacSeed ≠ [] ∧ result.frameSecrets.ingressMacSeed ≠ []

theorem keySchedule_seeded : (keySchedule crypto ecdheSecret keys isInitiator).egressMacSeed ≠ [] ∧
      (keySchedule crypto ecdheSecret keys isInitiator).ingressMacSeed ≠ [] := by
  have seeded (seed : FixedBytes 32) (msg : List UInt8) : seed.toList ++ msg ≠ [] := by
    intro empty
    have sized := congrArg List.length empty
    simp at sized
  cases isInitiator with
  | false => exact ⟨seeded _ _,seeded _ _⟩
  | true => exact ⟨seeded _ _,seeded _ _⟩

theorem ackNames_exact {ack : List UInt8} (role : config.peerPublicKey = some peer) (packet : Packet incoming lenBytes ack rest) :
    AckNames crypto config incoming key ↔
      ∃ nonce,parseAckMessage crypto ack config.localPrivateKey lenBytes = .ok (key,nonce) := by
  constructor
  · rintro ⟨_,_,_,_,plain,nonce,other,decrypted,form⟩
    obtain ⟨rfl,rfl⟩ := packet.same other
    exact ⟨nonce,(parseAckMessage_exact ..).mpr ⟨plain,decrypted,form⟩⟩
  · rintro ⟨nonce,parsed⟩
    obtain ⟨plain,decrypted,form⟩ := (parseAckMessage_exact ..).mp parsed
    exact ⟨by rw [role]; rfl,lenBytes,ack,rest,plain,nonce,packet,decrypted,form⟩

theorem deriveFrameSecrets_shared (memory : Indeterminate) (known : keys.peerEphemeralPublicKey = some key)
    (shared : crypto.sharedSecret key keys.localEphemeralPrivateKey = some ecdheSecret) (isInitiator : Bool) :
    deriveFrameSecrets crypto memory keys isInitiator = keySchedule crypto ecdheSecret keys isInitiator := by
  unfold deriveFrameSecrets
  rw [known]
  dsimp only [Option.getD_some]
  rw [shared]

theorem secrets_derived_iff (config : HandshakeConfig) (random : Randomness) (memory : Indeterminate)
    (transport : SocketTransport) (result : HandshakeResult)
    (executed : (execute crypto config random memory transport).1 = .ok result) : SecretsDerived crypto config random result ↔
      ∃ keypair key,random.keypair = some keypair ∧ AckNames crypto config transport.incoming key ∧
        (crypto.sharedSecret key keypair.privateKey).isSome := by
  obtain ⟨keypair,localNonce,after,drawn,_,exchanged,secrets⟩ := execute_ok executed
  unfold exchangeKeys at exchanged
  split at exchanged
  · rename_i peer role
    obtain ⟨_,_,_,key,nonce,_,packet,parsed,keys⟩ := initiate_ok exchanged
    have written : result.keyMaterial.peerEphemeralPublicKey = some key := by rw [keys]
    have owned : result.keyMaterial.localEphemeralPrivateKey = keypair.privateKey := by rw [keys]
    constructor
    · rintro ⟨_,_,ecdheSecret,same,named,shared,_⟩
      cases drawn.symm.trans same
      cases written.symm.trans named
      exact ⟨keypair,key,drawn,(ackNames_exact crypto role packet).mpr ⟨nonce,parsed⟩,by rw [shared]; rfl⟩
    · rintro ⟨_,_,same,named,shared⟩
      cases drawn.symm.trans same
      obtain ⟨_,again⟩ := (ackNames_exact crypto role packet).mp named
      cases parsed.symm.trans again
      obtain ⟨ecdheSecret,shared⟩ := Option.isSome_iff_exists.mp shared
      have scheduled := secrets.trans (deriveFrameSecrets_shared crypto memory written (owned ▸ shared) _)
      refine ⟨keypair,key,ecdheSecret,drawn,written,shared,scheduled,?_⟩
      rw [scheduled]
      exact keySchedule_seeded ..
  · rename_i role
    have unset := respond_ok exchanged
    constructor
    · rintro ⟨_,_,_,_,named,_⟩
      cases unset.symm.trans named
    · rintro ⟨_,_,_,⟨initiator,_⟩,_⟩
      rw [role] at initiator
      cases initiator

-- Both ends with the private key 1 and zeros for what is drawn at random, with
-- the values the real primitives take. Every public key is then the generator,
-- and every secret its first coordinate.
def word (value : Nat) : FixedBytes 32 := .ofNat 32 value

def generatorX : FixedBytes 32 := word 0x79be667ef9dcbbac55a06295ce870b07029bfcdb2dce28d959f2815b16f81798

def generatorY : FixedBytes 32 := word 0x483ada7726a3c4655da4fbfc0e1108a8fd17b448a68554199c47d08ffb10d4b8

def generator : FixedBytes 64 := ⟨generatorX.toList ++ generatorY.toList,by simp⟩

def sampleCrypto : AuthCrypto where
  sharedSecret publicKey _ := if publicKey = generator then some generatorX else none
  publicKey _ := some generator
  signRecoverable _ _ := some
    ⟨(word 0x4ac05908a72ebec27cdcab4b7c55b1638fb7fbfb856bf00bfcad7b0294f817dc).toList ++
      (word 0x720db9bc48254f68d5992a1cdc90d88def8494d9831960f7b4c73a70090b6fd7).toList ++ [1],by simp⟩
  sha256 data :=
    if data.length = 36 then word 0x8cb9c636e2c2d4e3345e36fcfe419f156780a25b8cf712db134a234384fbb0f1
    else word 0x89e892d1ac6a7f3914c14512baf1ff8be5219e82f3385a48cc5e61da59f70b40
  hmacSha256 _ data :=
    if data.length = 287 then word 0xbea6d2b6644e62c1cadc285b0ca12efe41ce671afb842018968dcc829383c299
    else if data.length = 120 then word 0x31756b0ce4cf919b9e8052ab8e0e212af4ac2c164f503d86f846f1bbebebde1e
    else word 0x2914ff4d1b147c8fea4303024ff1581645316d26fce557594f6d10dc06b89e8a
  aes128Keystream _ _ position := List.getD
    ([0x8602483c010fadc65388e9c85909ae43a6b33f463910d891afd0f46e05aec435,
      0x8b014f67d546c43b342befbd25301a4f6fb3c77970918c05167715c024c7d8db,
      0xa7750fd9f9f7e66c394beeeaaa4ba43702b305ffb32c53b0620cb3b90f8d319e,
      0xc981d332a0998d0150f8ba5cbd23bc01075ea76aae166c6e556de270469ded7d,
      0xd64b34ddc4b69887a459ca74e5a329c540cee7e042c2a0a9aee8fa2f8014558a,
      0x89bd95456ab58e29288585c55b42731744420707189a9be31f8cb2bf0fef91e4,
      0x3ee48786103b4c2c34da452a32959ae68ab1477fdf7803ee2592bc53d97cdf74,
      0x5e023181164ad4cabb693f147b9a9032c776ffe96338bd27ccf22e03324f0af1,
      0xc97992e7e8f4c99f44b5ef91606f6149067d621b3ab19c7caab02dcfe85e2b5c].flatMap (BigEndian.fixed 32)) position 0
  keccak256 data :=
    if data = List.replicate 64 0 then word 0xad3228b676f7d3cd4284a5443f17f1962b36e491b30a40b2405849e597ba5fb5
    else if data.getD 32 0 = 0xad ∧ data.getD 33 0 = 0x32 then
      word 0xad2d3ca11907de96fff5830aa17f8e0d8cc62b0f0c21e0380c5fdd0c80ef5f2e
    else if data.getD 32 0 = 0xad then word 0xb7dbe8d2d0a11cf3f1f9016b840c0b4482f59a383633fb260eca62ba9e4ed98a
    else word 0x8d4a058a2bc463f8936c9c4d0d3419cd9672ec16ad0e1a6855f58eb2064d1336

def sampleRandom : Randomness :=
  ⟨some ⟨generator,word 1⟩,some (.zeros 32),.zeros 100,word 1,.zeros 16⟩

def sampleMemory : Indeterminate := ⟨.zeros 64,.zeros 32,.zeros 32⟩

def sampleInitiator : HandshakeConfig := ⟨generator,word 1,some generator⟩

def sampleAck (key : FixedBytes 64) (padding : List UInt8) : List UInt8 :=
  let plain := encodeList (encodeString key.toList ++ encodeString (List.replicate 32 0) ++ [4]) ++ padding
  let size := lengthPrefix (plain.length + Ecies.kEciesOverheadSize)
  match Ecies.encrypt sampleCrypto (word 1) (.zeros 16) plain generator size with
  | .ok ack => size ++ ack
  | .error _ => []

def sampleRun (incoming : List UInt8) : Except SessionError HandshakeResult :=
  (execute sampleCrypto sampleInitiator sampleRandom sampleMemory ⟨[],incoming,none⟩).1

theorem run_ok {outcome : Except ε α} (read : outcome.toOption.map field = some value) :
    ∃ result,outcome = .ok result ∧ field result = value := by
  cases outcome with
  | error error => cases read
  | ok result => exact ⟨result,rfl,Option.some.inj read⟩

theorem generator_ack_accepted : ((sampleRun (sampleAck generator [])).toOption.map (·.frameSecrets.aesSecret)) =
    some (word 0xb7dbe8d2d0a11cf3f1f9016b840c0b4482f59a383633fb260eca62ba9e4ed98a) := by
  decide +kernel

theorem generator_ack_derived : ∃ result,sampleRun (sampleAck generator []) = .ok result ∧
    (SecretsDerived sampleCrypto sampleInitiator sampleRandom result ↔ ∃ keypair key,sampleRandom.keypair = some keypair ∧
        AckNames sampleCrypto sampleInitiator (sampleAck generator []) key ∧
        (sampleCrypto.sharedSecret key keypair.privateKey).isSome) := by
  obtain ⟨result,executed,_⟩ := run_ok generator_ack_accepted
  exact ⟨result,executed,secrets_derived_iff sampleCrypto sampleInitiator sampleRandom sampleMemory _ result executed⟩

theorem zero_key_accepted : ((sampleRun (sampleAck (.zeros 64) [0])).toOption.map (·.frameSecrets)) =
    some ⟨.zeros 32,.zeros 32,[],[]⟩ := by
  decide +kernel

theorem zero_key_default : ∃ result,sampleRun (sampleAck (.zeros 64) [0]) = .ok result ∧
    result.frameSecrets = ⟨.zeros 32,.zeros 32,[],[]⟩ ∧ ¬ SecretsDerived sampleCrypto sampleInitiator sampleRandom result := by
  obtain ⟨result,executed,secrets⟩ := run_ok zero_key_accepted
  refine ⟨result,executed,secrets,?_⟩
  rintro ⟨_,_,_,_,_,_,_,seeded,_⟩
  exact seeded (by rw [secrets])

end AuthHandshake
end EvmRelay.Rlpx
