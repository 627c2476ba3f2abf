import EvmRelay.FrameCipher
import EvmRelay.RlpReader
import EvmRelay.SocketTransport

namespace EvmRelay.Rlpx
open Rlp RlpSpec

-- The snappy calls. The two that decompress report whether they could.
structure Snappy where
  compress : List UInt8 → List UInt8
  getUncompressedLength : List UInt8 → Option Nat
  rawUncompress : List UInt8 → Option (List UInt8)

-- What snappy promises: compressed data is not empty and is decompressed to what
-- was compressed.
structure Snappy.Inverse (snappy : Snappy) : Prop where
  nonempty : ∀ data,snappy.compress data ≠ []
  length : ∀ data,snappy.getUncompressedLength (snappy.compress data) = some data.length
  data : ∀ data,snappy.rawUncompress (snappy.compress data) = some data

structure Message where
  id : BitVec 8
  payload : List UInt8
  deriving DecidableEq

structure MessageStream where
  cipher : FrameCipher
  compressionEnabled : Bool
  transport : SocketTransport

namespace MessageStream

def idBytes (messageId : BitVec 8) : Except EncodingError (List UInt8) := do
  let encoder ← RlpEncoder.new.addUnsigned (.integral .uint8) messageId
  encoder.getBytes

def payloadBytes (snappy : Snappy) (compressionEnabled : Bool) (payload : List UInt8) : List UInt8 :=
  if payload = [] then []
  else if compressionEnabled then snappy.compress payload
  else payload

def sendMessage (crypto : FrameCrypto) (snappy : Snappy) (stream : MessageStream) (messageId : BitVec 8)
    (payload : List UInt8) : Except SessionError Unit × MessageStream :=
  match idBytes messageId with
  | .error _ => (.error .kInvalidMessage,stream)
  | .ok idBytes =>
    let messageData := idBytes ++ payloadBytes snappy stream.compressionEnabled payload
    if messageData.length > kMaxFrameSize then (.error .kInvalidMessage,stream)
    else
      match stream.cipher.encryptFrame crypto messageData with
      | (.error _,cipher) => (.error .kEncryptionError,{ stream with cipher := cipher })
      | (.ok frame,cipher) =>
        let written := stream.transport.writeAll frame
        (written.1,{ stream with cipher := cipher, transport := written.2 })

-- Every failure is returned as an empty frame.
def receiveFrame (crypto : FrameCrypto) (stream : MessageStream) : List UInt8 × MessageStream :=
  match stream.transport.readExact kFrameHeaderWithMacSize with
  | (.error _,transport) => ([],{ stream with transport := transport })
  | (.ok headerData,transport) =>
    match stream.cipher.decryptHeader crypto (headerData.take kFrameHeaderSize) (headerData.drop kFrameHeaderSize) with
    | (.error _,cipher) => ([],{ stream with cipher := cipher, transport := transport })
    | (.ok frameSize,cipher) =>
      let paddedSize := frameSize + framePadding frameSize
      match transport.readExact (paddedSize + kMacSize) with
      | (.error _,transport) => ([],{ stream with cipher := cipher, transport := transport })
      | (.ok frameData,transport) =>
        match cipher.decryptFrameBody crypto frameSize (frameData.take paddedSize) (frameData.drop paddedSize) with
        | (.error _,cipher) => ([],{ stream with cipher := cipher, transport := transport })
        | (.ok frame,cipher) => (frame,{ stream with cipher := cipher, transport := transport })

def decodeMessage (snappy : Snappy) (compressionEnabled : Bool) (frameData : ByteView) : Except SessionError Message :=
  match readUint64 frameData with
  | .error _ => .error .kInvalidMessage
  | .ok (msgId,remaining) =>
    if compressionEnabled = true ∧ remaining.bytes ≠ [] then
      match snappy.getUncompressedLength remaining.bytes with
      | none => .error .kInvalidMessage
      | some _ =>
        match snappy.rawUncompress remaining.bytes with
        | none => .error .kInvalidMessage
        | some payload => .ok ⟨msgId.setWidth 8,payload⟩
    else .ok ⟨msgId.setWidth 8,remaining.bytes⟩

def receiveMessage (crypto : FrameCrypto) (snappy : Snappy) (stream : MessageStream) :
    Except SessionError Message × MessageStream :=
  let frame := stream.receiveFrame crypto
  if frame.1 = [] then (.error .kInvalidMessage,frame.2)
  else if fits : frame.1.length < sizeLimit then (decodeMessage snappy frame.2.compressionEnabled ⟨frame.1,fits⟩,frame.2)
  else (.error .kInvalidMessage,frame.2)

variable {sender : FrameCipher} {stream : MessageStream}

theorem readExact_header (incoming : stream.transport.incoming = (sender.sealFrame crypto frameData).1.wire ++ more) :
    let sealed := (sender.sealFrame crypto frameData).1
    stream.transport.readExact kFrameHeaderWithMacSize =
      (.ok (sealed.headerCt ++ sealed.headerMac),
        { stream.transport with incoming := sealed.frameCt ++ sealed.frameMac ++ more }) := by
  obtain ⟨header,headerMac,_,_⟩ := FrameCipher.sealFrame_sized ..
  refine SocketTransport.readExact_front (by rw [List.length_append,header,headerMac]) ?_
  simp only [incoming,SealedFrame.wire,List.append_assoc]

theorem receiveFrame_sealed (mirrored : sender.Mirrored stream.cipher) (nonempty : frameData ≠ [])
    (small : frameData.length < 2 ^ 24)
    (incoming : stream.transport.incoming = (sender.sealFrame crypto frameData).1.wire ++ more) :
    ∃ after,(sender.sealFrame crypto frameData).2.Mirrored after ∧
      stream.receiveFrame crypto = (frameData,{ stream with cipher := after, transport.incoming := more }) := by
  obtain ⟨header,headerMac,frame,frameMac⟩ := FrameCipher.sealFrame_sized ..
  obtain ⟨middle,after,read,body,whole⟩ := mirrored.received crypto nonempty small
  refine ⟨after,whole,?_⟩
  have rest : ({ stream.transport with incoming := (sender.sealFrame crypto frameData).1.frameCt ++
      (sender.sealFrame crypto frameData).1.frameMac ++ more } : SocketTransport).readExact
        (frameData.length + framePadding frameData.length + kMacSize) =
      (.ok ((sender.sealFrame crypto frameData).1.frameCt ++ (sender.sealFrame crypto frameData).1.frameMac),
        { stream.transport with incoming := more }) :=
    SocketTransport.readExact_front (by rw [List.length_append,frame,frameMac]) rfl
  simp only [receiveFrame,readExact_header incoming,List.take_left' header,List.drop_left' header,read]
  rw [rest]
  simp only [List.take_left' frame,List.drop_left' frame,body]

theorem receiveFrame_oversize (mirrored : sender.Mirrored stream.cipher) (large : frameData.length = 2 ^ 24)
    (incoming : stream.transport.incoming = (sender.sealFrame crypto frameData).1.wire ++ more) :
    (stream.receiveFrame crypto).1 = [] := by
  obtain ⟨header,_,_,_⟩ := FrameCipher.sealFrame_sized crypto sender frameData
  obtain ⟨middle,read,_⟩ := mirrored.sealFrame crypto (Nat.le_of_eq large)
  rw [large,if_pos (by decide)] at read
  simp only [receiveFrame,readExact_header incoming,List.take_left' header,List.drop_left' header,read]

-- The length field holds every accepted size but the largest one.
theorem accepted_frame_received_iff (crypto : FrameCrypto) (sender sent : FrameCipher) (receiver : MessageStream)
    (mirrored : sender.Mirrored receiver.cipher) (frameData wire more : List UInt8)
    (encrypted : sender.encryptFrame crypto frameData = (.ok wire,sent)) (incoming : receiver.transport.incoming = wire ++ more) :
    (lengthField (frameHeader frameData.length) = frameData.length ∧ ∃ after,sent.Mirrored after ∧
        receiver.receiveFrame crypto = (frameData,{ receiver with cipher := after, transport.incoming := more })) ↔
    frameData.length < 2 ^ 24 := by
  obtain ⟨nonempty,small,rfl,rfl⟩ := FrameCipher.encryptFrame_ok encrypted
  rw [lengthField_frameHeader]
  constructor
  · rintro ⟨announced,_⟩
    rw [← announced]
    exact Nat.mod_lt _ (by decide)
  · intro fits
    exact ⟨Nat.mod_eq_of_lt fits,receiveFrame_sealed mirrored nonempty fits incoming⟩

def sampleStream (incoming : List UInt8) : MessageStream :=
  ⟨.new ⟨FixedBytes.zeros 32,FixedBytes.zeros 32,[2],[1]⟩,true,⟨[],incoming,none⟩⟩

def sampleWire : List UInt8 :=
  ((FrameCipher.new FrameCipher.sampleSecrets).sealFrame FrameCipher.sampleCrypto FrameCipher.sampleMessage).1.wire

theorem sample_frame_received :
    (lengthField (frameHeader FrameCipher.sampleMessage.length) = FrameCipher.sampleMessage.length ∧
      ∃ after,((FrameCipher.new FrameCipher.sampleSecrets).sealFrame FrameCipher.sampleCrypto
          FrameCipher.sampleMessage).2.Mirrored after ∧
        (sampleStream sampleWire).receiveFrame FrameCipher.sampleCrypto =
          (FrameCipher.sampleMessage,{ sampleStream sampleWire with cipher := after, transport.incoming := [] })) ↔
    FrameCipher.sampleMessage.length < 2 ^ 24 :=
  accepted_frame_received_iff FrameCipher.sampleCrypto (.new FrameCipher.sampleSecrets) _ (sampleStream sampleWire)
    (FrameCipher.new_mirrored FrameCipher.sample_mirrored) FrameCipher.sampleMessage sampleWire []
    (FrameCipher.encryptFrame_accepted _ _ (by decide) (by decide)) (List.append_nil _).symm

theorem largest_frame_refused : ∃ frameData wire sent,
    (FrameCipher.new FrameCipher.sampleSecrets).encryptFrame FrameCipher.sampleCrypto frameData = (.ok wire,sent) ∧
      lengthField (frameHeader frameData.length) = 0 ∧ frameData.length = kMaxFrameSize ∧
      ((sampleStream wire).receiveFrame FrameCipher.sampleCrypto).1 = [] := by
  obtain ⟨frameData,large⟩ : ∃ frameData : List UInt8,frameData.length = 2 ^ 24 := ⟨List.replicate (2 ^ 24) 0,List.length_replicate⟩
  have nonempty : frameData ≠ [] := List.ne_nil_of_length_pos (by rw [large]; decide)
  refine ⟨frameData,_,_,FrameCipher.encryptFrame_accepted _ _ nonempty (Nat.le_of_eq large),?_,large,?_⟩
  · rw [lengthField_frameHeader,large]
    decide
  · exact receiveFrame_oversize (FrameCipher.new_mirrored FrameCipher.sample_mirrored) large (List.append_nil _).symm

theorem idBytes_eq : idBytes messageId = .ok (encodeScalar messageId.toNat) :=
  congrArg (· >>= RlpEncoder.getBytes) (addUnsigned_eq ..)

def messageData (snappy : Snappy) (compressionEnabled : Bool) (message : Message) : List UInt8 :=
  encodeScalar message.id.toNat ++ payloadBytes snappy compressionEnabled message.payload

theorem sendMessage_ok {sender sent : MessageStream}
    (done : sender.sendMessage crypto snappy message.id message.payload = (.ok (),sent)) :
    ∃ wire cipher,sender.cipher.encryptFrame crypto (messageData snappy sender.compressionEnabled message) =
        (.ok wire,cipher) ∧ sent.cipher = cipher ∧ sent.transport.sent = sender.transport.sent ++ wire := by
  rw [sendMessage,idBytes_eq] at done
  simp only at done
  split at done
  · simp at done
  split at done
  · simp at done
  rename_i wire cipher encrypted
  refine ⟨wire,cipher,encrypted,?_⟩
  rw [SocketTransport.writeAll] at done
  split at done
  · simp at done
  · cases done
    exact ⟨rfl,rfl⟩

theorem messageData_nonempty (compressionEnabled : Bool) (message : Message) :
    messageData snappy compressionEnabled message ≠ [] := by
  have coded : 0 < (encodeScalar message.id.toNat).length := (IsItem.string _).pos
  exact List.append_ne_nil_of_left_ne_nil (List.ne_nil_of_length_pos coded) _

theorem sendMessage_accepted (writable : stream.transport.writeError = none) (message : Message)
    (small : (messageData snappy stream.compressionEnabled message).length ≤ kMaxFrameSize) :
    let sealed := stream.cipher.sealFrame crypto (messageData snappy stream.compressionEnabled message)
    stream.sendMessage crypto snappy message.id message.payload =
      (.ok (),{ stream with cipher := sealed.2, transport.sent := stream.transport.sent ++ sealed.1.wire }) := by
  intro sealed
  have encrypted := FrameCipher.encryptFrame_accepted crypto stream.cipher
    (messageData_nonempty stream.compressionEnabled message) small
  rw [messageData] at small encrypted
  rw [sendMessage,idBytes_eq]
  simp only [Nat.not_lt.mpr small,if_false,encrypted,SocketTransport.writeAll,writable]
  rfl

theorem decodeMessage_messageData (inverse : snappy.Inverse) (compressionEnabled : Bool)
    (spelled : frame.bytes = messageData snappy compressionEnabled message) :
    decodeMessage snappy compressionEnabled frame = .ok message := by
  obtain ⟨id,payload⟩ := message
  obtain ⟨remaining,behind⟩ := ByteView.exists_behind spelled
  have wide : (id.setWidth 64).toNat = id.toNat := by simp; omega
  have read : readUint64 frame = .ok (id.setWidth 64,remaining) := by
    refine readUint64_reads (id.setWidth 64) frame remaining ?_
    rw [wide]
    exact spelled.trans (by rw [messageData,← behind]; rfl)
  have narrow : (id.setWidth 64).setWidth 8 = id := by simp
  simp only [decodeMessage,read,behind,payloadBytes,narrow]
  by_cases empty : payload = []
  · simp [empty]
  · cases compressionEnabled with
    | false => simp [empty]
    | true => simp [empty,inverse.nonempty,inverse.length,inverse.data]

def HasCode (frame : ByteView) (code : Nat) : Prop :=
  ∃ payload rest,frame.bytes = encodeString payload ++ rest ∧ code = BigEndian.value payload

theorem readUint64_code (read : readUint64 frame = .ok (msgId,remaining)) :
    (∃ code,HasCode frame code) ∧ ∀ code,HasCode frame code → msgId.toNat = code := by
  refine ⟨?_,?_⟩
  · obtain ⟨piece,spelled,formed⟩ := (readUint64_exact frame msgId remaining).mp read
    obtain ⟨payload,rfl,_⟩ := formed.string
    exact ⟨_,payload,remaining.bytes,spelled,rfl⟩
  · rintro code ⟨payload,rest,spelled,rfl⟩
    obtain ⟨view,rfl⟩ := ByteView.exists_behind spelled
    have scalar : (decodeScalar 8 payload).map (fun n => (n,view)) = .ok (msgId,remaining) :=
      (readUnsigned_string (.integral .uint64) spelled).symm.trans read
    cases decoded : decodeScalar 8 payload with
    | error error =>
      rw [decoded] at scalar
      cases scalar
    | ok n =>
      rw [decoded] at scalar
      cases scalar
      have bounds := sizeof_bounds (.integral .uint64)
      rcases (decodeScalar_exact bounds.1 bounds.2 payload msgId).mp decoded with rfl | ⟨rfl,rfl⟩
      · exact (BigEndian.value_minimal ..).symm
      · rfl

theorem decodeMessage_code (compressionEnabled : Bool) (message : Message)
    (decoded : decodeMessage snappy compressionEnabled frame = .ok message) :
    (∃ code,HasCode frame code) ∧ ∀ code,HasCode frame code → message.id.toNat = code % 256 := by
  rw [decodeMessage] at decoded
  cases read : readUint64 frame with
  | error error => simp [read] at decoded
  | ok found =>
    obtain ⟨msgId,remaining⟩ := found
    have narrowed : message.id = msgId.setWidth 8 := by
      simp only [read] at decoded
      split at decoded
      · split at decoded
        · cases decoded
        split at decoded
        · cases decoded
        · cases decoded
          rfl
      · cases decoded
        rfl
    obtain ⟨some_,all⟩ := readUint64_code read
    refine ⟨some_,?_⟩
    intro code has
    rw [narrowed,BitVec.toNat_setWidth,all code has]

theorem receiveMessage_empty (empty : (stream.receiveFrame crypto).1 = []) :
    (stream.receiveMessage crypto snappy).1 = .error .kInvalidMessage := by
  simp [receiveMessage,empty]

theorem receiveMessage_frame (received : stream.receiveFrame crypto = (frameData,after)) (nonempty : frameData ≠ [])
    (fits : frameData.length < sizeLimit) :
    stream.receiveMessage crypto snappy = (decodeMessage snappy after.compressionEnabled ⟨frameData,fits⟩,after) := by
  simp [receiveMessage,received,nonempty,fits]

theorem message_ids_iff (crypto : FrameCrypto) (snappy : Snappy) (inverse : snappy.Inverse) :
    (∀ (sender sent receiver : MessageStream) (message : Message) (wire more : List UInt8),
      sender.cipher.Mirrored receiver.cipher → sender.compressionEnabled = receiver.compressionEnabled →
      sender.sendMessage crypto snappy message.id message.payload = (.ok (),sent) →
      sent.transport.sent = sender.transport.sent ++ wire → receiver.transport.incoming = wire ++ more →
      ((receiver.receiveMessage crypto snappy).1 = .ok message ↔
        (messageData snappy sender.compressionEnabled message).length < 2 ^ 24)) ∧
    ∀ (compressionEnabled : Bool) (frame : ByteView) (message : Message),
      decodeMessage snappy compressionEnabled frame = .ok message →
      (∃ code,HasCode frame code) ∧ ∀ code,HasCode frame code → (message.id.toNat = code ↔ code ≤ 255) := by
  refine ⟨?_,?_⟩
  · intro sender sent receiver message wire more mirrored compression done wrote incoming
    obtain ⟨written,cipher,encrypted,_,appended⟩ := sendMessage_ok done
    obtain rfl : wire = written := List.append_cancel_left (wrote.symm.trans appended)
    obtain ⟨nonempty,small,rfl,rfl⟩ := FrameCipher.encryptFrame_ok encrypted
    constructor
    · intro received
      by_contra large
      have exactly := Nat.le_antisymm small (Nat.not_lt.mp large)
      rw [receiveMessage_empty (receiveFrame_oversize mirrored exactly incoming)] at received
      cases received
    · intro fits
      obtain ⟨after,_,received⟩ := receiveFrame_sealed mirrored nonempty fits incoming
      rw [receiveMessage_frame received nonempty (Nat.lt_trans fits (by decide))]
      exact decodeMessage_messageData inverse _ (congrArg (messageData snappy · message) compression)
  · intro compressionEnabled frame message decoded
    obtain ⟨some_,all⟩ := decodeMessage_code compressionEnabled message decoded
    refine ⟨some_,?_⟩
    intro code has
    rw [all code has]
    omega

-- What snappy makes of a single byte: its length, the tag of a literal, the byte.
def sampleSnappy : Snappy where
  compress data := 1 :: 0 :: data
  getUncompressedLength data := if data.take 2 = [1,0] then some (data.drop 2).length else none
  rawUncompress data := if data.take 2 = [1,0] then some (data.drop 2) else none

theorem sampleSnappy_inverse : sampleSnappy.Inverse :=
  ⟨fun _ => List.cons_ne_nil _ _,fun _ => rfl,fun _ => rfl⟩

def sampleSender : MessageStream := ⟨.new FrameCipher.sampleSecrets,true,⟨[],[],none⟩⟩

def samplePing : Message := ⟨2,[0xC0]⟩

theorem samplePing_data : messageData sampleSnappy true samplePing = FrameCipher.sampleMessage := by
  decide

theorem sampleMessage_fits : FrameCipher.sampleMessage.length < sizeLimit := by decide

theorem samplePing_received :
    (((sampleStream sampleWire).receiveMessage FrameCipher.sampleCrypto sampleSnappy).1 = .ok samplePing ↔
      (messageData sampleSnappy true samplePing).length < 2 ^ 24) ∧
    ((∃ code,HasCode ⟨FrameCipher.sampleMessage,sampleMessage_fits⟩ code) ∧
      ∀ code,HasCode ⟨FrameCipher.sampleMessage,sampleMessage_fits⟩ code → (samplePing.id.toNat = code ↔ code ≤ 255)) := by
  obtain ⟨sending,decoding⟩ := message_ids_iff FrameCipher.sampleCrypto sampleSnappy sampleSnappy_inverse
  have small : (messageData sampleSnappy true samplePing).length ≤ kMaxFrameSize := by
    rw [samplePing_data]
    decide
  refine ⟨?_,?_⟩
  · exact sending sampleSender _ (sampleStream sampleWire) samplePing sampleWire []
      (FrameCipher.new_mirrored FrameCipher.sample_mirrored) rfl (sendMessage_accepted rfl samplePing small)
      (by rw [show sampleSender.compressionEnabled = true from rfl,samplePing_data]; rfl) (List.append_nil _).symm
  · exact decoding true _ samplePing
      (decodeMessage_messageData sampleSnappy_inverse true samplePing_data.symm)

theorem wideCode_fits : ([0x82,0x01,0x00] : List UInt8).length < sizeLimit := by decide

theorem code_256_delivered_as_hello : ∃ frame message,decodeMessage sampleSnappy false frame = .ok message ∧
    HasCode frame 256 ∧ message.id.toNat = 0 :=
  ⟨⟨[0x82,0x01,0x00],wideCode_fits⟩,⟨0,[]⟩,by decide,⟨[1,0],[],by decide,by decide⟩,rfl⟩

end MessageStream
end EvmRelay.Rlpx
