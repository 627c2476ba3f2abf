import EvmRelay.Enr
import EvmRelay.Keystream

namespace EvmRelay.Discv5
open Enr Keystream

abbrev NodeId := FixedBytes 64
abbrev NodeAddress := FixedBytes 32

abbrev kMaskingIvBytes : Nat := 16
abbrev kProtocolIdBytes : Nat := 6
abbrev kStaticHeaderVersionOffset : Nat := 6
abbrev kStaticHeaderFlagOffset : Nat := 8
abbrev kStaticHeaderNonceOffset : Nat := 9
abbrev kStaticHeaderAuthSizeOffset : Nat := 21
abbrev kStaticHeaderBytes : Nat := 23
abbrev kStaticPacketBytes : Nat := kMaskingIvBytes + kStaticHeaderBytes
abbrev kProtocolVersion : Nat := 1
abbrev kFlagMessage : UInt8 := 0
abbrev kFlagWhoareyou : UInt8 := 1
abbrev kFlagHandshake : UInt8 := 2

def kProtocolId : List UInt8 := ascii "discv5"

structure PacketView where
  flag : UInt8
  nonce : FixedBytes 12
  authSize : Nat
  headerData : List UInt8
  authData : StdVector UInt8
  msgData : List UInt8
  deriving DecidableEq

-- EVP_aes_128_ctr: the keystream of a key and an IV, none where OpenSSL fails.
abbrev AesCtr := FixedBytes 16 → FixedBytes 16 → Option (Nat → UInt8)

def maskingKey (destination : NodeAddress) : FixedBytes 16 := .copy 16 destination.toList

def readU16Be (data : List UInt8) : Nat := BigEndian.value (data.take 2)

theorem unmasked_fits (position count : Nat) (data : ByteView) :
    (mask stream position ((data.bytes.drop start).take count)).length < sizeLimit := by
  have fits := data.fits
  rw [mask_length,List.length_take,List.length_drop]
  omega

def decodePacket (aesCtr : AesCtr) (data : ByteView) (destination : NodeAddress) : Except Discv5Error PacketView :=
  if data.length < kStaticPacketBytes then .error .kNetworkReceiveFailed
  else
    let iv : FixedBytes 16 := .copy kMaskingIvBytes data.bytes
    match aesCtr (maskingKey destination) iv with
    | none => .error .kContextCreationFailed
    | some stream =>
      let staticHeader := mask stream 0 ((data.bytes.drop kMaskingIvBytes).take kStaticHeaderBytes)
      if staticHeader.take kProtocolIdBytes ≠ kProtocolId then .error .kNetworkReceiveFailed
      else if readU16Be (staticHeader.drop kStaticHeaderVersionOffset) < kProtocolVersion then .error .kNetworkReceiveFailed
      else
        let authSize := readU16Be (staticHeader.drop kStaticHeaderAuthSizeOffset)
        let authEnd := kStaticPacketBytes + authSize
        if authEnd > data.length then .error .kNetworkReceiveFailed
        else
          -- The same cipher context goes on where the static header ended.
          let authData := mask stream kStaticHeaderBytes ((data.bytes.drop kStaticPacketBytes).take authSize)
          .ok {
            flag := (staticHeader.drop kStaticHeaderFlagOffset).headD 0
            nonce := .copy 12 (staticHeader.drop kStaticHeaderNonceOffset)
            authSize := authSize
            headerData := data.bytes.take kMaskingIvBytes ++ (staticHeader ++ authData)
            authData := ⟨authData,unmasked_fits ..⟩
            msgData := data.bytes.drop authEnd }

def plainHeader (flag : UInt8) (nonce : FixedBytes 12) (authData : List UInt8) : List UInt8 :=
  kProtocolId ++ (BigEndian.fixed 2 kProtocolVersion ++ (flag :: (nonce.toList ++ (BigEndian.fixed 2 authData.length ++ authData))))

-- The packet and the unmasked header. The IV is random, none where that fails.
def encodePacket (aesCtr : AesCtr) (iv : Option (FixedBytes 16)) (flag : UInt8) (nonce : FixedBytes 12)
    (authData msgData : List UInt8) (destination : NodeAddress) : Except Discv5Error (List UInt8 × List UInt8) :=
  match iv with
  | none => .error .kNetworkSendFailed
  | some iv =>
    match aesCtr (maskingKey destination) iv with
    | none => .error .kNetworkSendFailed
    | some stream =>
      let header := plainHeader flag nonce authData
      .ok (iv.toList ++ (mask stream 0 header ++ msgData),iv.toList ++ header)

section codec

theorem encodePacket_ok (encoded : encodePacket aesCtr drawn flag nonce authData msgData destination = .ok (packet,header)) :
    ∃ iv stream,aesCtr (maskingKey destination) iv = some stream ∧
      packet = iv.toList ++ (mask stream 0 (plainHeader flag nonce authData) ++ msgData) ∧
      header = iv.toList ++ plainHeader flag nonce authData := by
  unfold encodePacket at encoded
  split at encoded
  · cases encoded
  rename_i iv
  split at encoded
  · cases encoded
  · rename_i stream masked
    cases encoded
    exact ⟨iv,stream,masked,rfl,rfl⟩

def staticHeader (flag : UInt8) (nonce : FixedBytes 12) (size : Nat) : List UInt8 :=
  kProtocolId ++ (BigEndian.fixed 2 kProtocolVersion ++ (flag :: (nonce.toList ++ BigEndian.fixed 2 size)))

theorem plainHeader_cut : plainHeader flag nonce authData = staticHeader flag nonce authData.length ++ authData := by
  simp [plainHeader,staticHeader]

theorem staticHeader_length (flag : UInt8) (nonce : FixedBytes 12) (size : Nat) : (staticHeader flag nonce size).length = kStaticHeaderBytes := by
  simp [staticHeader,kProtocolId,ascii]

section fields
variable (flag : UInt8) (nonce : FixedBytes 12) (size : Nat)

theorem staticHeader_protocol : (staticHeader flag nonce size).take kProtocolIdBytes = kProtocolId := List.take_left' rfl

theorem staticHeader_version : readU16Be ((staticHeader flag nonce size).drop kStaticHeaderVersionOffset) = kProtocolVersion := by
  have cut : (staticHeader flag nonce size).drop kStaticHeaderVersionOffset =
      BigEndian.fixed 2 kProtocolVersion ++ (flag :: (nonce.toList ++ BigEndian.fixed 2 size)) := List.drop_left' rfl
  rw [readU16Be,cut,List.take_left' (BigEndian.fixed_length _ _)]
  exact BigEndian.value_fixed_of_lt (by decide)

theorem staticHeader_behind_version : (staticHeader flag nonce size).drop kStaticHeaderFlagOffset =
    flag :: (nonce.toList ++ BigEndian.fixed 2 size) := by
  have cut : staticHeader flag nonce size =
      (kProtocolId ++ BigEndian.fixed 2 kProtocolVersion) ++ (flag :: (nonce.toList ++ BigEndian.fixed 2 size)) := by
    simp [staticHeader]
  rw [cut]
  exact List.drop_left' rfl

theorem staticHeader_behind_flag : (staticHeader flag nonce size).drop kStaticHeaderNonceOffset =
    nonce.toList ++ BigEndian.fixed 2 size := by
  have next := congrArg (List.drop 1) (staticHeader_behind_version flag nonce size)
  rwa [List.drop_drop] at next

theorem staticHeader_size (short : size < 65536) :
    readU16Be ((staticHeader flag nonce size).drop kStaticHeaderAuthSizeOffset) = size := by
  have next := congrArg (List.drop 12) (staticHeader_behind_flag flag nonce size)
  rw [List.drop_drop,List.drop_left' nonce.toList_length] at next
  rw [readU16Be,next,List.take_of_length_le (by simp)]
  exact BigEndian.value_fixed_of_lt short

end fields

theorem packet_decoded (masked : aesCtr (maskingKey destination) iv = some stream) (short : auth.items.length < 65536)
    (spelled : data.bytes = iv.toList ++ (mask stream 0 (plainHeader flag nonce auth.items) ++ msgData)) :
    decodePacket aesCtr data destination =
      .ok ⟨flag,nonce,auth.items.length,iv.toList ++ plainHeader flag nonce auth.items,auth,msgData⟩ := by
  have width := staticHeader_length flag nonce auth.items.length
  have ivWidth : iv.toList.length = kMaskingIvBytes := iv.toList_length
  have cut : data.bytes = iv.toList ++ (mask stream 0 (staticHeader flag nonce auth.items.length) ++
      (mask stream kStaticHeaderBytes auth.items ++ msgData)) := by
    rw [spelled,plainHeader_cut,mask_append,width,Nat.zero_add,List.append_assoc]
  have total : data.length = kStaticPacketBytes + (auth.items.length + msgData.length) := by
    rw [ByteView.length,cut]
    simp only [List.length_append,mask_length,width,ivWidth,kStaticPacketBytes]
    omega
  have ivRead : FixedBytes.copy kMaskingIvBytes data.bytes = iv := by rw [cut]; exact FixedBytes.copy_toList iv _
  have front : data.bytes.take kMaskingIvBytes = iv.toList := by rw [cut]; exact List.take_left' ivWidth
  have behindIv : data.bytes.drop kMaskingIvBytes = mask stream 0 (staticHeader flag nonce auth.items.length) ++
      (mask stream kStaticHeaderBytes auth.items ++ msgData) := by rw [cut]; exact List.drop_left' ivWidth
  have behindStatic : data.bytes.drop kStaticPacketBytes = mask stream kStaticHeaderBytes auth.items ++ msgData := by
    rw [← List.drop_drop,behindIv]
    exact List.drop_left' (by rw [mask_length,width])
  have behindAuth : data.bytes.drop (kStaticPacketBytes + auth.items.length) = msgData := by
    rw [← List.drop_drop,behindStatic]
    exact List.drop_left' (mask_length _ _ _)
  have static : mask stream 0 ((data.bytes.drop kMaskingIvBytes).take kStaticHeaderBytes) =
      staticHeader flag nonce auth.items.length := by
    rw [behindIv,List.take_left' (by rw [mask_length,width]),mask_mask]
  have unmasked : mask stream kStaticHeaderBytes ((data.bytes.drop kStaticPacketBytes).take auth.items.length) = auth.items := by
    rw [behindStatic,List.take_left' (mask_length _ _ _),mask_mask]
  unfold decodePacket
  rw [if_neg (by omega)]
  dsimp only
  rw [ivRead,masked]
  dsimp only
  rw [static,if_neg (not_not_intro (staticHeader_protocol _ _ _)),staticHeader_version,if_neg (Nat.lt_irrefl _),
    staticHeader_size _ _ _ short,if_neg (by omega)]
  simp only [unmasked,behindAuth,front,staticHeader_behind_version,staticHeader_behind_flag,FixedBytes.copy_toList,plainHeader_cut]
  rfl

theorem decodePacket_encodePacket
    (encoded : encodePacket aesCtr drawn flag nonce auth.items msgData destination = .ok (packet,header))
    (short : auth.items.length < 65536) (spelled : data.bytes = packet ++ appended) :
    decodePacket aesCtr data destination = .ok ⟨flag,nonce,auth.items.length,header,auth,msgData ++ appended⟩ := by
  obtain ⟨iv,stream,masked,rfl,rfl⟩ := encodePacket_ok encoded
  rw [List.append_assoc,List.append_assoc] at spelled
  exact packet_decoded masked short spelled

end codec

end EvmRelay.Discv5
