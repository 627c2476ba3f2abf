import EvmRelay.Discv4Packets
import EvmRelay.ObjectLists

namespace EvmRelay.Discv4
open Rlp RlpSpec Reader Codec

-- A PONG as it is meant: further items stand behind a sequence number only.
structure PongPacket where
  lead : FixedBytes kWirePacketTypeOffset
  toEndpoint : PongEndpoint
  pingHash : Hash256
  expiration : BitVec 64
  ersErq : Option (BitVec 64)
  further : List (List UInt8)
  whole : ∀ item ∈ further,IsItem item
  placed : ersErq = none → further = []

namespace PongPacket

def fields (packet : PongPacket) : List UInt8 :=
  encodeList (encodeString packet.toEndpoint.ip.toList ++
    (encodeScalar packet.toEndpoint.udpPort.toNat ++ encodeScalar packet.toEndpoint.tcpPort.toNat)) ++
  (encodeString packet.pingHash.toList ++ encodeScalar packet.expiration.toNat)

def tail (packet : PongPacket) : List (List UInt8) :=
  packet.ersErq.toList.map (fun seq => encodeScalar seq.toNat) ++ packet.further

def bytes (packet : PongPacket) : List UInt8 :=
  packet.lead.toList ++ kPacketTypePong :: encodeList (packet.fields ++ packet.tail.flatten)

def States (packet : PongPacket) (pong : Pong) : Prop :=
  pong.toEndpoint = packet.toEndpoint ∧ pong.pingHash = packet.pingHash ∧
    pong.expiration.toNat = packet.expiration.toNat ∧ pong.ersErq = packet.ersErq.getD 0

-- What may follow the list unnoticed: whole items, of which the first spells 0
-- where it is taken for the sequence number.
def Ignores (packet : PongPacket) (t : List UInt8) : Prop :=
  ∃ items : List (List UInt8),t = items.flatten ∧ (∀ item ∈ items,IsItem item) ∧
    (packet.ersErq = none → items = [] ∨ ∃ zero others,items = zero :: others ∧ UnsignedForm zero (0 : BitVec 64))

theorem tail_items (packet : PongPacket) : ∀ item ∈ packet.tail,IsItem item := by
  intro item member
  rcases List.mem_append.mp member with seq | further
  · obtain ⟨seq,_,rfl⟩ := List.mem_map.mp seq
    exact .string _
  · exact packet.whole item further

end PongPacket

theorem expectList_opens (spelled : v.bytes = encodeList payload ++ rest) :
    ∃ view,expectList v = .ok (payload.length,view) ∧ view.bytes = payload ++ rest := by
  obtain ⟨view,opened,behind⟩ := encodeList_opens spelled
  rw [readListHeaderBytes_exact,← expectList_exact] at opened
  exact ⟨view,opened,behind⟩

theorem parseEndpoint_reads (endpoint : PongEndpoint) : Reads parseEndpoint (encodeList (encodeString endpoint.ip.toList ++
      (encodeScalar endpoint.udpPort.toNat ++ encodeScalar endpoint.tcpPort.toNat))) endpoint := by
  intro v rest spelled
  obtain ⟨view,opened,behind⟩ := expectList_opens spelled
  refine bind_ok_iff.mpr ⟨_,view,opened,?_⟩
  exact ((readFixed_reads endpoint.ip).bind (readUint16_reads.bind (readUint16_reads.map fun tcpPort =>
    (⟨endpoint.ip,endpoint.udpPort,tcpPort⟩ : PongEndpoint)))) view rest behind

def FirstSeq (items : List (List UInt8)) (seq : BitVec 64) : Prop :=
  (items = [] ∧ seq = 0) ∨ ∃ piece others,items = piece :: others ∧ UnsignedForm piece seq

theorem ersErqTail_iff : (∃ rest,readTail readErsErq v = .ok (seq,rest)) ↔
      ∃ items : List (List UInt8),v.bytes = items.flatten ∧ (∀ item ∈ items,IsItem item) ∧ FirstSeq items seq := by
  have optional : readErsErq = readOptional readUint64 0 id := by
    funext v
    unfold readErsErq readOptional
    split
    · rfl
    · exact (bind_pure _).symm
  rw [optional,readTail_iff readUint64_exact (fun _ _ => unsigned_item)]
  simp [FirstSeq]

section parsing
variable {packet : PongPacket}

theorem readPong_iff (spelled : v.bytes = encodeList (packet.fields ++ packet.tail.flatten) ++ t)
    (left : w.bytes = packet.tail.flatten ++ t) :
    readPong v = .ok (pong,rest) ↔ ∃ seq,readTail readErsErq w = .ok (seq,rest) ∧
      pong = ⟨packet.toEndpoint,packet.pingHash,packet.expiration.setWidth 32,seq⟩ := by
  obtain ⟨view,opened,behind⟩ := expectList_opens spelled
  rw [PongPacket.fields,List.append_assoc,List.append_assoc,List.append_assoc] at behind
  obtain ⟨one,behind,first⟩ := view.cut behind
  obtain ⟨two,first,second⟩ := one.cut first
  rw [← left] at second
  have ran : readPong v = (do
      let ersErq ← readErsErq
      let _ ← skipItems
      return ⟨packet.toEndpoint,packet.pingHash,packet.expiration.setWidth 32,ersErq⟩ : Decoder Pong) w := by
    rw [readPong,bind_of_ok opened,bind_of_ok (parseEndpoint_reads packet.toEndpoint view one behind),
      bind_of_ok (readFixed_reads packet.pingHash one two first),bind_of_ok (readUint64_reads packet.expiration two w second)]
  rw [ran]
  exact readTail_pack _

theorem parsePong_iff (spelled : raw.bytes = packet.bytes ++ t) :
    parsePong raw = .ok pong ↔ ∃ items seq,t = items.flatten ∧ (∀ item ∈ items,IsItem item) ∧ FirstSeq (packet.tail ++ items) seq ∧
      pong = ⟨packet.toEndpoint,packet.pingHash,packet.expiration.setWidth 32,seq⟩ := by
  rw [PongPacket.bytes,List.append_assoc] at spelled
  obtain ⟨long,type,payload⟩ := payload_behind packet.lead spelled
  have parsed : parsePong raw = (readPong (raw.removePrefix kWireHeaderSize)).map Prod.fst := by
    have long : ¬ raw.length ≤ kWireHeaderSize - kWirePacketTypeSize := Nat.not_le.mpr long
    rw [parsePong,if_neg long,if_neg (not_not_intro type)]
  obtain ⟨view,behind⟩ := ByteView.exists_behind (payload.trans (List.append_assoc _ _ _))
  obtain ⟨w,left⟩ := ByteView.exists_behind (behind.trans (List.append_assoc _ _ _))
  rw [parsed,returned_iff]
  constructor
  · intro ⟨rest,ran⟩
    obtain ⟨seq,ran,same⟩ := (readPong_iff payload left).mp ran
    obtain ⟨row,cut,all,first⟩ := ersErqTail_iff.mp ⟨rest,ran⟩
    obtain ⟨items,rfl,behind⟩ := items_begin packet.tail_items all (left.symm.trans cut) (cut ▸ w.fits)
    exact ⟨items,seq,behind,(List.forall_mem_append.mp all).2,first,same⟩
  · intro ⟨items,seq,behind,all,first,same⟩
    have cut : w.bytes = (packet.tail ++ items).flatten := by rw [left,behind,List.flatten_append]
    obtain ⟨rest,ran⟩ := ersErqTail_iff.mpr ⟨_,cut,List.forall_mem_append.mpr ⟨packet.tail_items,all⟩,first⟩
    exact ⟨rest,(readPong_iff payload left).mpr ⟨seq,ran,same⟩⟩

end parsing

theorem firstSeq_iff (packet : PongPacket) (items : List (List UInt8)) :
    FirstSeq (packet.tail ++ items) (packet.ersErq.getD 0) ↔ (packet.ersErq = none →
      items = [] ∨ ∃ zero others,items = zero :: others ∧ UnsignedForm zero (0 : BitVec 64)) := by
  cases found : packet.ersErq with
  | none =>
    have bare : packet.tail = [] := by rw [PongPacket.tail,found,packet.placed found]; rfl
    rw [bare,List.nil_append]
    simp [FirstSeq]
  | some seq =>
    have row : packet.tail = encodeScalar seq.toNat :: packet.further := by rw [PongPacket.tail,found]; rfl
    rw [row]
    exact ⟨fun _ impossible => (by cases impossible),fun _ => .inr ⟨_,_,rfl,.inl rfl⟩⟩

-- The list's length is not used: the fields come back unless the expiration is
-- cut to 32 bits, and what follows the list is read on.
theorem pong_extension_iff (packet : PongPacket) (raw : ByteView) (spelled : raw.bytes = packet.bytes) :
    ((∃ pong,parsePong raw = .ok pong ∧ packet.States pong) ↔ packet.expiration.toNat < 2 ^ 32) ∧
    ∀ (t : List UInt8) (longer : ByteView),longer.bytes = raw.bytes ++ t → (parsePong longer = parsePong raw ↔ packet.Ignores t) := by
  have plain : parsePong raw = .ok ⟨packet.toEndpoint,packet.pingHash,packet.expiration.setWidth 32,packet.ersErq.getD 0⟩ := by
    refine (parsePong_iff (spelled.trans (List.append_nil _).symm)).mpr ⟨[],_,rfl,by simp,?_,rfl⟩
    exact (firstSeq_iff packet []).mpr fun _ => .inl rfl
  refine ⟨?_,?_⟩
  · rw [plain]
    simp only [Except.ok.injEq,exists_eq_left',PongPacket.States,BitVec.toNat_setWidth,true_and,and_true]
    exact ⟨fun same => same ▸ Nat.mod_lt _ (by decide),Nat.mod_eq_of_lt⟩
  · intro t longer appended
    rw [plain,parsePong_iff (appended.trans (congrArg (· ++ t) spelled))]
    constructor
    · intro ⟨items,seq,behind,all,first,same⟩
      cases same
      exact ⟨items,behind,all,(firstSeq_iff ..).mp first⟩
    · intro ⟨items,behind,all,first⟩
      exact ⟨items,_,behind,all,(firstSeq_iff ..).mpr first,rfl⟩

theorem no_items : ∀ item ∈ ([] : List (List UInt8)),IsItem item := by simp

def samplePong (expiration : BitVec 64) (ersErq : Option (BitVec 64)) : PongPacket :=
  ⟨.zeros 97,⟨.zeros 4,30303,30303⟩,.zeros 32,expiration,ersErq,[],no_items,fun _ => rfl⟩

def sequencedPong : ByteView := ⟨(samplePong 60 (some 7)).bytes,by decide +kernel⟩

theorem sequenced_pong_extended : (∃ pong,parsePong sequencedPong = .ok pong ∧ (samplePong 60 (some 7)).States pong) ∧
    parsePong ⟨sequencedPong.bytes ++ [0x05],by decide +kernel⟩ = parsePong sequencedPong := by
  have parsed := pong_extension_iff (samplePong 60 (some 7)) sequencedPong rfl
  refine ⟨parsed.1.mpr (by decide),(parsed.2 [0x05] _ rfl).mpr ⟨[encodeString [0x05]],rfl,?_,?_⟩⟩
  · exact List.forall_mem_singleton.mpr (.string _)
  · intro missing
    cases missing

def barePong : ByteView := ⟨(samplePong 60 none).bytes,by decide +kernel⟩

def latePong : ByteView := ⟨(samplePong 0x100000000 none).bytes,by decide +kernel⟩

-- The byte 7 behind the list becomes the sequence number, the start of a string
-- an error, and an expiration of 2^32 comes back as 0.
theorem appended_byte_read : parsePong barePong = .ok ⟨⟨.zeros 4,30303,30303⟩,.zeros 32,60,0⟩ ∧
    parsePong ⟨barePong.bytes ++ [0x07],by decide +kernel⟩ = .ok ⟨⟨.zeros 4,30303,30303⟩,.zeros 32,60,7⟩ ∧
    parsePong ⟨barePong.bytes ++ [0x81],by decide +kernel⟩ = .error .kInputTooShort ∧
    parsePong latePong = .ok ⟨⟨.zeros 4,30303,30303⟩,.zeros 32,0,0⟩ := by
  decide +kernel

end EvmRelay.Discv4
