import EvmRelay.AuthHandshake

namespace EvmRelay.Rlpx
open RlpSpec

theorem receivePacket_sent (transport : SocketTransport) : (receivePacket transport).2.sent = transport.sent := by
  have first := transport.readExact_sent kEip8LengthPrefixSize
  unfold receivePacket
  split
  · rename_i read
    rw [read] at first
    exact first
  rename_i lenBytes between read
  rw [read] at first
  have second := between.readExact_sent (packetLength lenBytes)
  split
  · exact first
  split
  · rename_i again
    rw [again] at second
    exact second.trans first
  · rename_i again
    rw [again] at second
    exact second.trans first

namespace AuthHandshake

structure Party where
  config : HandshakeConfig
  random : Randomness
  memory : Indeterminate

def Party.handshake (crypto : AuthCrypto) (party : Party) (incoming : List UInt8) :
    Except SessionError HandshakeResult × SocketTransport :=
  execute crypto party.config party.random party.memory ⟨[],incoming,none⟩

-- Two ends over a reliable connection: each is delivered what the other writes.
structure Exchange (crypto : AuthCrypto) (initiator responder : Party) (auth ack : List UInt8) : Prop where
  dials : initiator.config.peerPublicKey = some responder.config.localPublicKey
  listens : responder.config.peerPublicKey = none
  sent : (initiator.handshake crypto ack).2.sent = auth
  answered : (responder.handshake crypto auth).2.sent = ack

structure Agreement (initiator responder : HandshakeResult) : Prop where
  initiatorNonce : responder.keyMaterial.initiatorNonce = initiator.keyMaterial.initiatorNonce
  recipientNonce : initiator.keyMaterial.recipientNonce = responder.keyMaterial.recipientNonce
  recipientKey : initiator.keyMaterial.peerEphemeralPublicKey = some responder.keyMaterial.localEphemeralPublicKey
  initiatorKey : responder.keyMaterial.peerEphemeralPublicKey = some initiator.keyMaterial.localEphemeralPublicKey
  secrets : FrameCipher.MirroredSecrets initiator.frameSecrets responder.frameSecrets

def Agreed (initiator responder : Except SessionError HandshakeResult) : Prop :=
  ∃ one other,initiator = .ok one ∧ responder = .ok other ∧ Agreement one other

theorem exchangeKeys_dials (dials : config.peerPublicKey = some peer) :
    exchangeKeys crypto config random keypair localNonce transport =
      initiate crypto config random keypair localNonce peer transport := by
  rw [exchangeKeys,dials]

theorem exchangeKeys_listens (listens : config.peerPublicKey = none) :
    exchangeKeys crypto config random keypair localNonce transport =
      respond crypto config random keypair localNonce transport := by
  rw [exchangeKeys,listens]

theorem execute_transport (drawn : random.keypair = some keypair) (nonce : random.nonce = some localNonce) :
    (execute crypto config random memory transport).2 =
      (exchangeKeys crypto config random keypair localNonce transport).2 := by
  unfold execute
  rw [drawn,nonce]
  dsimp only
  split
  · rename_i exchanged
    rw [exchanged]
  · rename_i exchanged
    rw [exchanged]

theorem execute_undrawn (missing : random.keypair = none ∨ random.nonce = none) :
    (execute crypto config random memory transport).2 = transport := by
  unfold execute
  rcases missing with missing | missing
  · rw [missing]
  · rw [missing]
    cases random.keypair with
    | none => rfl
    | some keypair => rfl

theorem Randomness.cases (random : Randomness) : (random.keypair = none ∨ random.nonce = none) ∨
    ∃ keypair localNonce,random.keypair = some keypair ∧ random.nonce = some localNonce := by
  cases drawn : random.keypair with
  | none => exact .inl (.inl rfl)
  | some keypair =>
    cases nonce : random.nonce with
    | none => exact .inl (.inr rfl)
    | some localNonce => exact .inr ⟨keypair,localNonce,rfl,rfl⟩

theorem respond_sent (random : Randomness) (localNonce : FixedBytes 32) :
    (respond crypto config random keypair localNonce ⟨[],incoming,none⟩).2.sent = [] ∨
      ∃ peer ack,createAckMessage crypto random keypair.publicKey localNonce peer = .ok ack ∧
        (respond crypto config random keypair localNonce ⟨[],incoming,none⟩).2.sent = lengthPrefix ack.length ++ ack := by
  have kept := receivePacket_sent ⟨[],incoming,none⟩
  unfold respond
  split
  · rename_i received
    rw [received] at kept
    exact .inl kept
  rename_i lenBytes auth transport received
  rw [received] at kept
  split
  · exact .inl kept
  rename_i peer nonce parsed
  split
  · exact .inl kept
  rename_i ack made
  split
  · rename_i wrote
    exact .inl ((SocketTransport.writeAll_error wrote).trans kept)
  · rename_i wrote
    refine .inr ⟨peer,ack,made,?_⟩
    rw [SocketTransport.writeAll_ok wrote,kept]
    rfl

theorem handshake_answered (party : Party) (listens : party.config.peerPublicKey = none) (incoming : List UInt8) :
    (party.handshake crypto incoming).2.sent = [] ∨
      ∃ key nonce peer ack,createAckMessage crypto party.random key nonce peer = .ok ack ∧
        (party.handshake crypto incoming).2.sent = lengthPrefix ack.length ++ ack := by
  unfold Party.handshake
  rcases Randomness.cases party.random with missing | ⟨keypair,localNonce,drawn,nonce⟩
  · rw [execute_undrawn missing]
    exact .inl rfl
  · rw [execute_transport drawn nonce,exchangeKeys_listens listens]
    rcases respond_sent .. with nothing | ⟨peer,ack,made,sent⟩
    · exact .inl nothing
    · exact .inr ⟨keypair.publicKey,localNonce,peer,ack,made,sent⟩

theorem packet_of_length (small : body.length ≤ kMaxEip8HandshakePacketSize) :
    Packet (lengthPrefix body.length ++ body) (lengthPrefix body.length) body [] := by
  have announced := packetLength_lengthPrefix (Nat.lt_of_le_of_lt small (by decide))
  exact ⟨BigEndian.fixed_length 2 _,announced.symm,announced.symm ▸ small,by rw [List.append_nil]⟩

variable {ack : List UInt8}

theorem ack_packet (made : createAckMessage crypto random key nonce peer = .ok ack) :
    Packet (lengthPrefix ack.length ++ ack) (lengthPrefix ack.length) ack [] := by
  have sized : ack.length = 210 := by
    rw [Ecies.encrypt_length (by simp) made,List.length_append,List.length_append,key.toList_length,nonce.toList_length]
    rfl
  exact packet_of_length (by rw [sized]; decide)

theorem initiator_refuses (exchange : Exchange crypto initiator responder auth ack)
    (binds : Ecies.BindsMacData crypto initiator.config.localPrivateKey (ack.drop 2) (ack.take 2)) :
    (initiator.handshake crypto ack).1 ≠ .ok result := by
  intro executed
  obtain ⟨keypair,localNonce,after,_,_,exchanged,_⟩ := execute_ok executed
  rw [exchangeKeys_dials exchange.dials] at exchanged
  obtain ⟨_,lenBytes,body,key,nonce,_,packet,parsed,_⟩ := initiate_ok exchanged
  rcases handshake_answered responder exchange.listens auth with nothing | ⟨_,_,_,made,encrypted,sent⟩
  · have short := congrArg List.length (packet.spelled.symm.trans (exchange.answered.symm.trans nothing))
    rw [List.length_append,packet.announced] at short
    simp at short
  · rw [← exchange.answered,sent] at packet binds
    obtain ⟨rfl,rfl⟩ := packet.same (ack_packet encrypted)
    obtain ⟨plain,decrypted,_⟩ := (parseAckMessage_exact ..).mp parsed
    rw [List.drop_left' packet.announced,List.take_left' packet.announced] at binds
    exact Ecies.decrypt_refused binds encrypted decrypted

theorem handshake_never_agrees (crypto : AuthCrypto) (initiator responder : Party) (auth ack : List UInt8)
    (exchange : Exchange crypto initiator responder auth ack) :
    ¬ Agreed (initiator.handshake crypto ack).1 (responder.handshake crypto auth).1 ∧
      (Ecies.BindsMacData crypto initiator.config.localPrivateKey (ack.drop 2) (ack.take 2) → ∀ result,(initiator.handshake crypto ack).1 ≠ .ok result) := by
  refine ⟨?_,fun binds _ => initiator_refuses exchange binds⟩
  rintro ⟨one,other,_,succeeded,agreement⟩
  obtain ⟨keypair,localNonce,after,_,_,exchanged,_⟩ := execute_ok succeeded
  rw [exchangeKeys_listens exchange.listens] at exchanged
  cases (respond_ok exchanged).symm.trans agreement.initiatorKey

def sampleDialer : Party := ⟨sampleInitiator,sampleRandom,sampleMemory⟩

def sampleListener : Party := ⟨⟨generator,word 1,none⟩,sampleRandom,sampleMemory⟩

-- With the values of the real primitives the responder takes the wrong bytes for
-- a key, sends nothing, and both ends give up.
theorem sample_exchange : Exchange sampleCrypto sampleDialer sampleListener (sampleDialer.handshake sampleCrypto []).2.sent [] :=
  ⟨rfl,rfl,rfl,by decide +kernel⟩

theorem sample_never_agrees : ¬ Agreed (sampleDialer.handshake sampleCrypto []).1
      (sampleListener.handshake sampleCrypto (sampleDialer.handshake sampleCrypto []).2.sent).1 ∧
    ∀ result,(sampleDialer.handshake sampleCrypto []).1 ≠ .ok result := by
  obtain ⟨apart,refused⟩ := handshake_never_agrees sampleCrypto sampleDialer sampleListener _ [] sample_exchange
  exact ⟨apart,refused nofun⟩

theorem sample_handshake_fails : ∃ auth ack,Exchange sampleCrypto sampleDialer sampleListener auth ack ∧
    (sampleDialer.handshake sampleCrypto ack).1 = .error .kAuthenticationFailed ∧
    (sampleListener.handshake sampleCrypto auth).1 = .error .kAuthenticationFailed :=
  ⟨_,[],sample_exchange,by decide +kernel,by decide +kernel⟩

end AuthHandshake
end EvmRelay.Rlpx
