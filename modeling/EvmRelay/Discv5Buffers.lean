import EvmRelay.Discv5Packet

namespace EvmRelay.Discv5
open Enr Keystream

def readAt (bytes : List UInt8) (start count : Nat) : Option (FixedBytes count) :=
  if inside : start + count ≤ bytes.length then
    some ⟨(bytes.drop start).take count,by rw [List.length_take,List.length_drop]; omega⟩
  else none

def writeAt (buffer : List UInt8) (start : Nat) (bytes : List UInt8) : Option (List UInt8) :=
  if start + bytes.length ≤ buffer.length then
    some (buffer.take start ++ (bytes ++ buffer.drop (start + bytes.length)))
  else none

def resize (buffer : List UInt8) (size : Nat) : List UInt8 := (buffer ++ List.replicate (size - buffer.length) 0).take size

theorem authData_fits (size : FixedBytes 2) (auth : FixedBytes (BigEndian.value size.toList)) :
    (mask stream kStaticHeaderBytes auth.toList).length < sizeLimit := by
  have short := BigEndian.value_lt size.toList
  rw [List.Vector.toList_length] at short
  rw [mask_length,List.Vector.toList_length]
  exact Nat.lt_trans short (by decide)

-- What decode_packet takes from the unmasked static header: the flag, the nonce
-- and the two bytes of the auth size.
def readStaticAt (headerData : List UInt8) : Option (Except Discv5Error (UInt8 × FixedBytes 12 × FixedBytes 2)) := do
  let protocolId ← readAt headerData kMaskingIvBytes kProtocolIdBytes
  if protocolId.toList ≠ kProtocolId then some (.error .kNetworkReceiveFailed)
  else
    let version ← readAt headerData (kMaskingIvBytes + kStaticHeaderVersionOffset) 2
    if BigEndian.value version.toList < kProtocolVersion then some (.error .kNetworkReceiveFailed)
    else
      let flag ← readAt headerData (kMaskingIvBytes + kStaticHeaderFlagOffset) 1
      let nonce ← readAt headerData (kMaskingIvBytes + kStaticHeaderNonceOffset) 12
      let size ← readAt headerData (kMaskingIvBytes + kStaticHeaderAuthSizeOffset) 2
      some (.ok (flag.toList.headD 0,nonce,size))

-- decode_packet with every access to the datagram and to header_data made by its
-- offset: none if one of them is out of range.
def decodePacketAt (aesCtr : AesCtr) (data : List UInt8) (destination : NodeAddress) : Option (Except Discv5Error PacketView) :=
  if data.length < kStaticPacketBytes then some (.error .kNetworkReceiveFailed)
  else do
    let headerData := List.replicate kStaticPacketBytes 0
    let iv ← readAt data 0 kMaskingIvBytes
    let headerData ← writeAt headerData 0 iv.toList
    match aesCtr (maskingKey destination) iv with
    | none => some (.error .kContextCreationFailed)
    | some stream =>
      let masked ← readAt data kMaskingIvBytes kStaticHeaderBytes
      let headerData ← writeAt headerData kMaskingIvBytes (mask stream 0 masked.toList)
      match ← readStaticAt headerData with
      | .error error => some (.error error)
      | .ok (flag,nonce,size) =>
        let authSize := BigEndian.value size.toList
        let authEnd := kStaticPacketBytes + authSize
        if authEnd > data.length then some (.error .kNetworkReceiveFailed)
        else
          let auth ← readAt data kStaticPacketBytes authSize
          let authData := mask stream kStaticHeaderBytes auth.toList
          let headerData ← writeAt (resize headerData authEnd) kStaticPacketBytes authData
          let msgData ← readAt data authEnd (data.length - authEnd)
          some (.ok {
            flag := flag
            nonce := nonce
            authSize := authSize
            headerData := headerData
            authData := ⟨authData,authData_fits ..⟩
            msgData := msgData.toList })

theorem readAt_inside (bytes : List UInt8) (start count : Nat) (inside : start + count ≤ bytes.length) :
    ∃ piece,readAt bytes start count = some piece ∧ piece.toList = (bytes.drop start).take count :=
  ⟨_,dif_pos inside,rfl⟩

theorem copy_piece (same : piece.toList = bytes.take count) : FixedBytes.copy count bytes = piece := by
  rw [← List.take_append_drop count bytes,← same]
  exact FixedBytes.copy_toList ..

theorem copy_take (bytes : List UInt8) (count : Nat) (inside : count ≤ bytes.length) : (FixedBytes.copy count bytes).toList = bytes.take count := by
  obtain ⟨piece,_,same⟩ := readAt_inside bytes 0 count (by omega)
  exact (congrArg List.Vector.toList (copy_piece same)).trans same

theorem readAt_behind (wide : front.length = width) (start count : Nat) (inside : start + count ≤ back.length) :
    ∃ piece,readAt (front ++ back) (width + start) count = some piece ∧ piece.toList = (back.drop start).take count := by
  obtain ⟨piece,read,same⟩ := readAt_inside (front ++ back) (width + start) count (by rw [List.length_append]; omega)
  refine ⟨piece,read,?_⟩
  rw [same,← List.drop_drop,List.drop_left' wide]

theorem writeAt_zeros (wide : front.length = width) (exactly : back.length = count) :
    writeAt (front ++ List.replicate count 0) width back = some (front ++ back) := by
  subst wide
  rw [writeAt,if_pos (by simp [exactly]),List.take_left]
  have done : (front ++ List.replicate count (0 : UInt8)).drop (front.length + back.length) = [] := by
    rw [List.drop_eq_nil_iff]
    simp [exactly]
  rw [done,List.append_nil]

theorem resize_longer (wide : buffer.length = width) : resize buffer (width + more) = buffer ++ List.replicate more 0 := by
  rw [resize,wide,Nat.add_sub_cancel_left]
  exact List.take_of_length_le (by simp [wide])

theorem readStaticAt_eq (wide : front.length = kMaskingIvBytes) (exactly : static.length = kStaticHeaderBytes) :
    readStaticAt (front ++ static) = some (
      if static.take kProtocolIdBytes ≠ kProtocolId then .error .kNetworkReceiveFailed
      else if readU16Be (static.drop kStaticHeaderVersionOffset) < kProtocolVersion then .error .kNetworkReceiveFailed
      else .ok ((static.drop kStaticHeaderFlagOffset).headD 0,.copy 12 (static.drop kStaticHeaderNonceOffset),
        .copy 2 (static.drop kStaticHeaderAuthSizeOffset))) := by
  have inside (start count : Nat) (room : start + count ≤ kStaticHeaderBytes) :
      ∃ piece,readAt (front ++ static) (kMaskingIvBytes + start) count = some piece ∧ piece.toList = (static.drop start).take count :=
    readAt_behind wide start count (Nat.le_trans room (Nat.le_of_eq exactly.symm))
  obtain ⟨protocolId,protocolRead,protocolSame⟩ := inside 0 kProtocolIdBytes (by decide)
  obtain ⟨version,versionRead,versionSame⟩ := inside kStaticHeaderVersionOffset 2 (by decide)
  obtain ⟨flag,flagRead,flagSame⟩ := inside kStaticHeaderFlagOffset 1 (by decide)
  obtain ⟨nonce,nonceRead,nonceSame⟩ := inside kStaticHeaderNonceOffset 12 (by decide)
  obtain ⟨size,sizeRead,sizeSame⟩ := inside kStaticHeaderAuthSizeOffset 2 (by decide)
  have flagHead : (static.drop kStaticHeaderFlagOffset).headD 0 = flag.toList.headD 0 := by
    rw [flagSame]
    cases static.drop kStaticHeaderFlagOffset <;> rfl
  have protocolRead : readAt (front ++ static) kMaskingIvBytes kProtocolIdBytes = some protocolId := protocolRead
  have protocolSame : protocolId.toList = static.take kProtocolIdBytes := protocolSame
  simp only [readStaticAt,protocolRead,versionRead,flagRead,nonceRead,sizeRead,Option.bind_eq_bind,Option.bind_some,readU16Be,
    ← protocolSame,← versionSame,flagHead,copy_piece nonceSame,copy_piece sizeSame]
  split
  · rfl
  · split
    · rfl
    · rfl

theorem readRestAt_eq (stream : Nat → UInt8) {data : ByteView} {size : FixedBytes 2}
    (wide : (front ++ static).length = kStaticPacketBytes) (room : kStaticPacketBytes + BigEndian.value size.toList ≤ data.bytes.length) :
    ∃ (auth : FixedBytes (BigEndian.value size.toList)) (msgData : FixedBytes _),
      readAt data.bytes kStaticPacketBytes (BigEndian.value size.toList) = some auth ∧
      auth.toList = (data.bytes.drop kStaticPacketBytes).take (BigEndian.value size.toList) ∧
      writeAt (resize (front ++ static) (kStaticPacketBytes + BigEndian.value size.toList)) kStaticPacketBytes
        (mask stream kStaticHeaderBytes auth.toList) = some (front ++ (static ++ mask stream kStaticHeaderBytes auth.toList)) ∧
      readAt data.bytes (kStaticPacketBytes + BigEndian.value size.toList)
        (data.bytes.length - (kStaticPacketBytes + BigEndian.value size.toList)) = some msgData ∧
      msgData.toList = data.bytes.drop (kStaticPacketBytes + BigEndian.value size.toList) := by
  obtain ⟨auth,authRead,authSame⟩ := readAt_inside data.bytes kStaticPacketBytes (BigEndian.value size.toList) room
  obtain ⟨msgData,msgRead,msgSame⟩ := readAt_inside data.bytes (kStaticPacketBytes + BigEndian.value size.toList)
    (data.bytes.length - (kStaticPacketBytes + BigEndian.value size.toList)) (by omega)
  refine ⟨auth,msgData,authRead,authSame,?_,msgRead,?_⟩
  · rw [resize_longer wide,writeAt_zeros wide (by rw [mask_length,auth.toList_length]),List.append_assoc]
  · rw [msgSame,List.take_of_length_le (by rw [List.length_drop])]

-- No access is out of range, whatever arrives, and the result is the decoder's.
theorem decodePacketAt_eq (aesCtr : AesCtr) (data : ByteView) (destination : NodeAddress) :
    decodePacketAt aesCtr data.bytes destination = some (decodePacket aesCtr data destination) := by
  unfold decodePacketAt decodePacket
  by_cases short : data.bytes.length < kStaticPacketBytes
  · rw [if_pos short,if_pos (show data.length < kStaticPacketBytes from short)]
  rw [if_neg short,if_neg (show ¬ data.length < kStaticPacketBytes from short)]
  have long : kMaskingIvBytes + kStaticHeaderBytes ≤ data.bytes.length := Nat.not_lt.mp short
  obtain ⟨iv,ivRead,ivSame⟩ := readAt_inside data.bytes 0 kMaskingIvBytes (by omega)
  have ivSame : iv.toList = data.bytes.take kMaskingIvBytes := ivSame
  have ivWidth := iv.toList_length
  have ivWritten : writeAt (List.replicate kStaticPacketBytes 0) 0 iv.toList =
      some (iv.toList ++ List.replicate kStaticHeaderBytes 0) := by
    rw [writeAt,if_pos (by simp),ivWidth]
    simp
  simp only [ivRead,ivWritten,copy_piece ivSame,Option.bind_eq_bind,Option.bind_some]
  cases aesCtr (maskingKey destination) iv with
  | none => rfl
  | some stream =>
    obtain ⟨masked,maskedRead,maskedSame⟩ := readAt_inside data.bytes kMaskingIvBytes kStaticHeaderBytes long
    have exactly : (mask stream 0 masked.toList).length = kStaticHeaderBytes := by rw [mask_length,masked.toList_length]
    have headerWritten := writeAt_zeros ivWidth exactly
    simp only [maskedRead,headerWritten,Option.bind_some,readStaticAt_eq ivWidth exactly,← maskedSame]
    by_cases protocol : (mask stream 0 masked.toList).take kProtocolIdBytes ≠ kProtocolId
    · rw [if_pos protocol,if_pos protocol]
    rw [if_neg protocol,if_neg protocol]
    by_cases version : readU16Be ((mask stream 0 masked.toList).drop kStaticHeaderVersionOffset) < kProtocolVersion
    · rw [if_pos version,if_pos version]
    rw [if_neg version,if_neg version]
    have sizeSame := copy_take ((mask stream 0 masked.toList).drop kStaticHeaderAuthSizeOffset) 2
      (by rw [List.length_drop,exactly]; decide)
    simp only [readU16Be,← sizeSame]
    split
    · rename_i tooLong
      exact congrArg some (if_pos tooLong).symm
    rename_i ends
    rw [if_neg (show ¬ _ > data.length from ends)]
    have wide : (iv.toList ++ mask stream 0 masked.toList).length = kStaticPacketBytes := by
      rw [List.length_append,ivWidth,exactly]
    obtain ⟨auth,msgData,authRead,authSame,written,msgRead,msgSame⟩ :=
      readRestAt_eq stream wide (Nat.not_lt.mp ends)
    simp only [authRead,written,msgRead,Option.bind_some,← authSame,msgSame,← ivSame]

theorem decodePacket_sizes (accepted : decodePacket aesCtr data destination = .ok packet) :
    kStaticPacketBytes + packet.authData.items.length + packet.msgData.length = data.length ∧
      packet.authSize = packet.authData.items.length ∧ packet.headerData.length = kStaticPacketBytes + packet.authSize := by
  unfold decodePacket at accepted
  split_ifs at accepted with short
  dsimp only at accepted
  split at accepted
  · cases accepted
  split at accepted
  · cases accepted
  split at accepted
  · cases accepted
  split at accepted
  · cases accepted
  rename_i ends
  cases accepted
  have total : data.bytes.length = data.length := rfl
  simp only [kStaticPacketBytes,kMaskingIvBytes,kStaticHeaderBytes] at short ends
  simp only [List.length_append,mask_length,List.length_take,List.length_drop,total,kStaticPacketBytes,kMaskingIvBytes,
    kStaticHeaderBytes]
  omega

theorem packet_codec :
    (∀ (aesCtr : AesCtr) (drawn : Option (FixedBytes 16)) (flag : UInt8) (nonce : FixedBytes 12) (authData : StdVector UInt8)
      (msgData packet header : List UInt8) (destination : NodeAddress) (data : ByteView),authData.items.length < 65536 →
      encodePacket aesCtr drawn flag nonce authData.items msgData destination = .ok (packet,header) → data.bytes = packet →
        decodePacket aesCtr data destination = .ok ⟨flag,nonce,authData.items.length,header,authData,msgData⟩) ∧
    (∀ (aesCtr : AesCtr) (data : ByteView) (destination : NodeAddress),
      decodePacketAt aesCtr data.bytes destination = some (decodePacket aesCtr data destination)) ∧
    (∀ (aesCtr : AesCtr) (data : ByteView) (destination : NodeAddress) (packet : PacketView),
      decodePacket aesCtr data destination = .ok packet →
        kStaticPacketBytes + packet.authData.items.length + packet.msgData.length = data.length ∧
          packet.authSize = packet.authData.items.length ∧ packet.headerData.length = kStaticPacketBytes + packet.authSize) := by
  refine ⟨?_,decodePacketAt_eq,fun _ _ _ _ => decodePacket_sizes⟩
  intro aesCtr drawn flag nonce authData msgData packet header destination data short encoded spelled
  have decoded := decodePacket_encodePacket encoded short (spelled.trans (List.append_nil ..).symm)
  rwa [List.append_nil] at decoded

def countingCtr : AesCtr := fun _ _ => some UInt8.ofNat

def smallAuth : StdVector UInt8 := ⟨[1,2,3],by decide⟩

def smallPacket : PacketView :=
  ⟨kFlagWhoareyou,.zeros 12,3,(FixedBytes.zeros 16).toList ++ plainHeader kFlagWhoareyou (.zeros 12) [1,2,3],smallAuth,[9]⟩

def smallDatagram : ByteView :=
  ⟨(FixedBytes.zeros 16).toList ++ (mask UInt8.ofNat 0 (plainHeader kFlagWhoareyou (.zeros 12) [1,2,3]) ++ [9]),by decide +kernel⟩

theorem small_packet_decoded : decodePacket countingCtr smallDatagram (.zeros 32) = .ok smallPacket ∧
      kStaticPacketBytes + 3 + 1 = smallDatagram.length ∧ 3 = smallAuth.items.length ∧
      smallPacket.headerData.length = kStaticPacketBytes + 3 :=
  ⟨packet_codec.1 countingCtr (some (.zeros 16)) kFlagWhoareyou (.zeros 12) smallAuth [9] _ _ (.zeros 32) smallDatagram
      (by decide) rfl rfl,
    packet_codec.2.2 countingCtr smallDatagram (.zeros 32) smallPacket (by decide +kernel)⟩

end EvmRelay.Discv5
