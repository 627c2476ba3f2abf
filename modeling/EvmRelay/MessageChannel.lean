import EvmRelay.Machine
import EvmRelay.MessageStream

namespace EvmRelay.Rlpx

namespace FrameCipher

-- What one direction of a connection depends on, which one end has in its
-- outward half and the other in its inward half.
abbrev Way := FixedBytes 32 × Nat × HashMAC

def outward (cipher : FrameCipher) : Way := (cipher.secrets.aesSecret,cipher.encAt,cipher.egressMac)

def inward (cipher : FrameCipher) : Way := (cipher.secrets.aesSecret,cipher.decAt,cipher.ingressMac)

def sealFrom (crypto : FrameCrypto) (way : Way) (frame : List UInt8) : List UInt8 × Way :=
  let sealed := sealFrame crypto ⟨⟨way.1,way.1,[],[]⟩,way.2.1,0,way.2.2,way.2.2⟩ frame
  (sealed.1.wire,sealed.2.outward)

def sealAll (crypto : FrameCrypto) (way : Way) : List (List UInt8) → List UInt8 × Way
  | [] => ([],way)
  | frame :: rest =>
    let sealed := sealFrom crypto way frame
    let more := sealAll crypto sealed.2 rest
    (sealed.1 ++ more.1,more.2)

theorem sealAll_snoc : sealAll crypto way (frames ++ [frame]) =
    ((sealAll crypto way frames).1 ++ (sealFrom crypto (sealAll crypto way frames).2 frame).1,
      (sealFrom crypto (sealAll crypto way frames).2 frame).2) := by
  induction frames generalizing way with
  | nil => simp [sealAll]
  | cons first rest ih => simp [sealAll,ih]

theorem sealFrom_nonempty : (sealFrom crypto way frame).1 ≠ [] := by
  intro empty
  obtain ⟨header,_⟩ := sealFrame_sized crypto ⟨⟨way.1,way.1,[],[]⟩,way.2.1,0,way.2.2,way.2.2⟩ frame
  have length := congrArg List.length empty
  simp [sealFrom,SealedFrame.wire,header] at length

end FrameCipher

open FrameCipher

namespace MessageStream

theorem receiveFrame_inward {stream : MessageStream} (nonempty : frame ≠ []) (small : frame.length < 2 ^ 24)
    (incoming : stream.transport.incoming = (sealFrom crypto stream.cipher.inward frame).1 ++ more) :
    ∃ after,after.inward = (sealFrom crypto stream.cipher.inward frame).2 ∧ after.outward = stream.cipher.outward ∧
      stream.receiveFrame crypto = (frame,{ stream with cipher := after, transport.incoming := more }) := by
  have mirrored : Mirrored ⟨stream.cipher.secrets,stream.cipher.decAt,stream.cipher.encAt,stream.cipher.ingressMac,
      stream.cipher.egressMac⟩ stream.cipher := ⟨rfl,rfl,rfl,rfl,rfl⟩
  obtain ⟨after,same,received⟩ := receiveFrame_sealed mirrored nonempty small incoming
  refine ⟨after,?_,?_,received⟩
  · exact Prod.ext same.aesSecret.symm (Prod.ext same.outward.symm same.outwardMac.symm)
  · exact Prod.ext same.aesSecret.symm (Prod.ext same.inward.symm same.inwardMac.symm)

-- One end of a connection. Nothing in the code stands for `sent` and `received`:
-- the messages it was given, and what its receives returned.
structure End where
  stream : MessageStream
  sent : List Message
  received : List (Except SessionError Message)

inductive Transfer where
  | send (message : Message)
  | receive

namespace End
variable (crypto : FrameCrypto) (snappy : Snappy)

def opened (secrets : FrameSecrets) (compressionEnabled : Bool) : End := ⟨⟨.new secrets,compressionEnabled,⟨[],[],none⟩⟩,[],[]⟩

-- A step of the first end. What it writes arrives at the second.
def act (s : End × End) : Transfer → End × End
  | .send message =>
    let stream := (s.1.stream.sendMessage crypto snappy message.id message.payload).2
    let wire := stream.transport.sent.drop s.1.stream.transport.sent.length
    ({ s.1 with stream := stream, sent := s.1.sent ++ [message] },
      { s.2 with stream.transport.incoming := s.2.stream.transport.incoming ++ wire })
  | .receive =>
    let done := s.1.stream.receiveMessage crypto snappy
    ({ s.1 with stream := done.2, received := s.1.received ++ [done.1] },s.2)

-- The longest frame that is accepted is not received, and a receive waits for
-- what it reads.
def Allowed (own : End) : Transfer → Prop
  | .send message => (messageData snappy own.stream.compressionEnabled message).length < 2 ^ 24
  | .receive => own.stream.transport.incoming ≠ []

def channel : Machine (End × End) (Bool × Transfer) where
  Allowed s step := Allowed snappy (if step.1 then s.1 else s.2) step.2
  apply s step := if step.1 then act crypto snappy s step.2 else (act crypto snappy s.swap step.2).swap

-- The messages ahead were sent and not yet received: their frames, in order,
-- are what stands between the two ends.
structure Carries (own peer : End) (ahead : List Message) : Prop where
  writable : own.stream.transport.writeError = none
  compression : peer.stream.compressionEnabled = own.stream.compressionEnabled
  small : ∀ message ∈ ahead,(messageData snappy own.stream.compressionEnabled message).length < 2 ^ 24
  complete : peer.received ++ ahead.map .ok = own.sent.map .ok
  between : sealAll crypto peer.stream.cipher.inward (ahead.map (messageData snappy own.stream.compressionEnabled)) =
    (peer.stream.transport.incoming,own.stream.cipher.outward)

def Joined (s : End × End) : Prop := (∃ ahead,Carries crypto snappy s.1 s.2 ahead) ∧ ∃ ahead,Carries crypto snappy s.2 s.1 ahead

variable {crypto : FrameCrypto} {snappy : Snappy} {s : End × End}

theorem act_joined (inverse : snappy.Inverse) (joined : Joined crypto snappy s) (transfer : Transfer)
    (allowed : Allowed snappy s.1 transfer) : Joined crypto snappy (act crypto snappy s transfer) := by
  obtain ⟨⟨ahead,onward⟩,behind,backward⟩ := joined
  cases transfer with
  | send message =>
    dsimp only [act]
    rw [sendMessage_accepted onward.writable message (Nat.le_of_lt allowed)]
    dsimp only
    rw [List.drop_left]
    refine ⟨⟨ahead ++ [message],onward.writable,onward.compression,?_,?_,?_⟩,behind,backward.writable,backward.compression,
      backward.small,backward.complete,backward.between⟩
    · exact List.forall_mem_append.mpr ⟨onward.small,List.forall_mem_singleton.mpr allowed⟩
    · simp [← onward.complete]
    · rw [List.map_append,List.map_singleton,sealAll_snoc,onward.between]
      rfl
  | receive =>
    obtain ⟨arrived,reached⟩ := Prod.mk.inj backward.between
    cases behind with
    | nil => exact absurd arrived.symm allowed
    | cons message behind =>
      have nonempty : messageData snappy s.2.stream.compressionEnabled message ≠ [] := messageData_nonempty _ message
      have fits := backward.small message List.mem_cons_self
      obtain ⟨after,inwards,outwards,received⟩ := receiveFrame_inward nonempty fits arrived.symm
      dsimp only [act]
      rw [receiveMessage_frame received nonempty (Nat.lt_trans fits (by decide)),
        decodeMessage_messageData inverse _ (congrArg (messageData snappy · message) backward.compression.symm)]
      refine ⟨⟨ahead,onward.writable,onward.compression,onward.small,onward.complete,?_⟩,behind,backward.writable,
        backward.compression,fun other member => backward.small other (List.mem_cons_of_mem _ member),?_,?_⟩
      · exact onward.between.trans (congrArg (Prod.mk _) outwards.symm)
      · simp [← backward.complete]
      · rw [inwards]
        exact Prod.ext rfl reached

theorem channel_joined (inverse : snappy.Inverse) (s : End × End) (step : Bool × Transfer)
    (allowed : (channel crypto snappy).Allowed s step) (joined : Joined crypto snappy s) :
    Joined crypto snappy ((channel crypto snappy).apply s step) := by
  obtain ⟨side,transfer⟩ := step
  cases side with
  | true => exact act_joined inverse joined transfer allowed
  | false =>
    have swapped : Joined crypto snappy s.swap := joined.symm
    exact (act_joined inverse swapped transfer allowed).symm

theorem Carries.delivered {own peer : End} (carries : Carries crypto snappy own peer ahead) :
    peer.received <+: own.sent.map .ok ∧ (peer.stream.transport.incoming = [] → peer.received = own.sent.map .ok) := by
  refine ⟨⟨_,carries.complete⟩,fun none => ?_⟩
  cases ahead with
  | nil => exact (List.append_nil _).symm.trans carries.complete
  | cons message ahead =>
    have wire := (Prod.mk.inj carries.between).1.trans none
    exact absurd (List.append_eq_nil_iff.mp wire).1 sealFrom_nonempty

-- However the two ends take turns, each receives what the other has sent, in
-- that order and nothing else, and all of it once nothing is left to read.
theorem messages_delivered (crypto : FrameCrypto) (snappy : Snappy) (inverse : snappy.Inverse) (one other : FrameSecrets)
    (secrets : MirroredSecrets one other) (compressionEnabled : Bool) (steps : List (Bool × Transfer)) (s : End × End)
    (path : (channel crypto snappy).Sequence (opened one compressionEnabled,opened other compressionEnabled) steps s) :
    (s.2.received <+: s.1.sent.map .ok ∧ (s.2.stream.transport.incoming = [] → s.2.received = s.1.sent.map .ok)) ∧
      s.1.received <+: s.2.sent.map .ok ∧ (s.1.stream.transport.incoming = [] → s.1.received = s.2.sent.map .ok) := by
  obtain ⟨aesSecret,macSecret,outward,inward⟩ := secrets
  have start : Joined crypto snappy (opened one compressionEnabled,opened other compressionEnabled) := by
    refine ⟨⟨[],rfl,rfl,nofun,rfl,?_⟩,[],rfl,rfl,nofun,rfl,?_⟩
    · simp [opened,new,sealAll,FrameCipher.inward,FrameCipher.outward,aesSecret,macSecret,outward]
    · simp [opened,new,sealAll,FrameCipher.inward,FrameCipher.outward,aesSecret,macSecret,inward]
  obtain ⟨⟨_,onward⟩,_,backward⟩ := path.keeps (Joined crypto snappy) start (channel_joined inverse)
  exact ⟨onward.delivered,backward.delivered⟩

instance (own : End) : DecidablePred (Allowed snappy own)
  | .send _ => Nat.decLt ..
  | .receive => inferInstanceAs (Decidable (own.stream.transport.incoming ≠ []))

instance (s : End × End) (step : Bool × Transfer) : Decidable ((channel crypto snappy).Allowed s step) :=
  inferInstanceAs (Decidable (Allowed snappy _ step.2))

def sampleEnds : End × End := (opened sampleSecrets true,opened ⟨.zeros 32,.zeros 32,[2],[1]⟩ true)

def pings : List (Bool × Transfer) :=
  [(true,.send samplePing),(false,.send samplePing),(true,.receive),(false,.receive),(false,.send samplePing)]

theorem pings_delivered :
    let s := pings.foldl (channel FrameCipher.sampleCrypto sampleSnappy).apply sampleEnds
    s.2.stream.transport.incoming = [] ∧ s.2.received = s.1.sent.map .ok ∧ s.1.received <+: s.2.sent.map .ok := by
  intro s
  have path : (channel FrameCipher.sampleCrypto sampleSnappy).Sequence sampleEnds pings s :=
    Machine.sequence_of_check (by decide +kernel)
  obtain ⟨⟨_,onward⟩,backward,_⟩ := messages_delivered FrameCipher.sampleCrypto sampleSnappy sampleSnappy_inverse sampleSecrets _
    sample_mirrored true pings s path
  have none : s.2.stream.transport.incoming = [] := by decide +kernel
  exact ⟨none,onward none,backward⟩

end End
end MessageStream
end EvmRelay.Rlpx
