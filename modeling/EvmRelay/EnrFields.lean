import EvmRelay.EnrLayout

namespace EvmRelay.Enr
open Rlp RlpSpec

inductive Slot where
  | identityScheme | compressedPubkey | ip | ip6 | tcpPort | udpPort | tcp6Port | udp6Port | ethForkId
  | extra (key : List UInt8)
  deriving DecidableEq

def Slot.Value : Slot → Type
  | .identityScheme => List UInt8
  | .compressedPubkey => FixedBytes 33
  | .ip => String
  | .ip6 => String
  | .tcpPort => BitVec 16
  | .udpPort => BitVec 16
  | .tcp6Port => BitVec 16
  | .udp6Port => BitVec 16
  | .ethForkId => Option ForkId
  | .extra _ => Option (List UInt8)

def EnrRecord.slots (record : EnrRecord) : (slot : Slot) → slot.Value
  | .identityScheme => record.identityScheme
  | .compressedPubkey => record.compressedPubkey
  | .ip => record.ip
  | .ip6 => record.ip6
  | .tcpPort => record.tcpPort
  | .udpPort => record.udpPort
  | .tcp6Port => record.tcp6Port
  | .udp6Port => record.udp6Port
  | .ethForkId => record.ethForkId
  | .extra key => record.extraFields key

-- The slot a key names; a key that is not known names a slot of its own.
def slotOf (key : List UInt8) : Slot :=
  if key = ascii "id" then .identityScheme
  else if key = ascii "secp256k1" then .compressedPubkey
  else if key = ascii "ip" then .ip
  else if key = ascii "ip6" then .ip6
  else if key = ascii "tcp" then .tcpPort
  else if key = ascii "udp" then .udpPort
  else if key = ascii "tcp6" then .tcp6Port
  else if key = ascii "udp6" then .udp6Port
  else if key = ascii "eth" then .ethForkId
  else .extra key

def decodeValue (text : AddressText) : (slot : Slot) → StdVector UInt8 → Option slot.Value
  | .identityScheme,val => some val.items
  | .compressedPubkey,val => if size : val.items.length = kCompressedKeyBytes then some ⟨val.items,size⟩ else none
  | .ip,val => (decodeIpv4 text val).toOption
  | .ip6,val => (decodeIpv6 text val).toOption
  | .tcpPort,val => (decodePort val).toOption
  | .udpPort,val => (decodePort val).toOption
  | .tcp6Port,val => (decodePort val).toOption
  | .udp6Port,val => (decodePort val).toOption
  | .ethForkId,val => (decodeEthEntry val).toOption.map some
  | .extra _,val => some (some val.items)

def entryAt (text : AddressText) (slot : Slot) (val : StdVector UInt8) : Option (Sigma Slot.Value) :=
  (decodeValue text slot val).map (Sigma.mk slot)

def entryOf (text : AddressText) (pair : Pair) : Option (Sigma Slot.Value) := entryAt text (slotOf pair.1) pair.2

def entries (text : AddressText) (pairs : List Pair) : List (Sigma Slot.Value) := pairs.filterMap (entryOf text)

def EnrRecord.set (record : EnrRecord) : Sigma Slot.Value → EnrRecord
  | ⟨.identityScheme,value⟩ => { record with identityScheme := value }
  | ⟨.compressedPubkey,value⟩ => { record with compressedPubkey := value }
  | ⟨.ip,value⟩ => { record with ip := value }
  | ⟨.ip6,value⟩ => { record with ip6 := value }
  | ⟨.tcpPort,value⟩ => { record with tcpPort := value }
  | ⟨.udpPort,value⟩ => { record with udpPort := value }
  | ⟨.tcp6Port,value⟩ => { record with tcp6Port := value }
  | ⟨.udp6Port,value⟩ => { record with udp6Port := value }
  | ⟨.ethForkId,value⟩ => { record with ethForkId := value }
  | ⟨.extra key,value⟩ => { record with extraFields := Function.update record.extraFields key value }

theorem set_slots (record : EnrRecord) : (record.set entry).slots = LastWrite.write record.slots entry := by
  obtain ⟨slot,value⟩ := entry
  have here : (record.set ⟨slot,value⟩).slots slot = value := by
    cases slot with
    | extra key => exact Function.update_self ..
    | _ => rfl
  have elsewhere : ∀ other, other ≠ slot → (record.set ⟨slot,value⟩).slots other = record.slots other := by
    intro other different
    cases slot with
    | extra key =>
      cases other with
      | extra key' => exact Function.update_of_ne (fun same => different (by rw [same])) ..
      | _ => rfl
    | _ => cases other <;> first | rfl | exact absurd rfl different
  funext other
  by_cases same : other = slot
  · subst same
    rw [LastWrite.write,Function.update_self,here]
  · rw [LastWrite.write,Function.update_of_ne same,elsewhere other same]

theorem set_seq (record : EnrRecord) : (record.set entry).seq = record.seq := by
  obtain ⟨slot,value⟩ := entry
  cases slot <;> rfl

theorem applyPair_eq :
    applyPair text record pair =
      match entryOf text pair with
      | none => record
      | some entry => record.set entry := by
  unfold applyPair entryOf slotOf
  dsimp only
  split_ifs with _ _ size
  · rfl
  · rw [entryAt,decodeValue,dif_pos size]
    rfl
  · rw [entryAt,decodeValue,dif_neg size]
    rfl
  · rw [entryAt,decodeValue]
    cases decodeIpv4 text pair.2 <;> rfl
  · rw [entryAt,decodeValue]
    cases decodeIpv6 text pair.2 <;> rfl
  · rw [entryAt,decodeValue]
    cases decodePort pair.2 <;> rfl
  · rw [entryAt,decodeValue]
    cases decodePort pair.2 <;> rfl
  · rw [entryAt,decodeValue]
    cases decodePort pair.2 <;> rfl
  · rw [entryAt,decodeValue]
    cases decodePort pair.2 <;> rfl
  · rw [entryAt,decodeValue]
    cases decodeEthEntry pair.2 <;> rfl
  · rfl

theorem entryOf_slot (found : entryOf text pair = some entry) : entry.1 = slotOf pair.1 := by
  obtain ⟨value,_,made⟩ := Option.map_eq_some_iff.mp found
  cases made
  rfl

theorem applyPair_elsewhere (text : AddressText) (record : EnrRecord) (other : slotOf pair.1 ≠ slot) :
    (applyPair text record pair).slots slot = record.slots slot := by
  rw [applyPair_eq]
  cases entry : entryOf text pair with
  | none => rfl
  | some written =>
    rw [set_slots,LastWrite.write,Function.update_of_ne]
    rw [entryOf_slot entry]
    exact other.symm

theorem fields_slots (text : AddressText) (pairs : List Pair) (record : EnrRecord) :
    (pairs.foldl (applyPair text) record).slots = LastWrite.run record.slots (entries text pairs) := by
  induction pairs generalizing record with
  | nil => rfl
  | cons pair rest ih =>
    rw [List.foldl_cons,ih,applyPair_eq,entries,entries]
    cases entry : entryOf text pair with
    | none => rw [List.filterMap_cons_none entry]
    | some written =>
      rw [List.filterMap_cons_some entry,LastWrite.run,LastWrite.run,List.foldl_cons]
      rw [set_slots]

theorem fields_seq (text : AddressText) (pairs : List Pair) (record : EnrRecord) :
    (pairs.foldl (applyPair text) record).seq = record.seq := by
  induction pairs generalizing record with
  | nil => rfl
  | cons pair rest ih =>
    rw [List.foldl_cons,ih,applyPair_eq]
    cases entryOf text pair with
    | none => rfl
    | some entry => exact set_seq ..

-- A record on the wire, taken apart: the outer list with its signature and its
-- other elements, what follows it, and the way the parser reads on from the
-- signature.
structure Layout (raw : ByteView) where
  sig : FixedBytes 64
  elements : ByteView
  tail : List UInt8
  seqBytes : List UInt8
  seq : BitVec 64
  stream : ByteView
  pairs : List Pair
  left : List UInt8
  nonempty : elements.bytes ≠ []
  outer : raw.bytes = listHeader (66 + elements.length) ++ (encodeString sig.toList ++ (elements.bytes ++ tail))
  number : seqBytes = encodeScalar seq.toNat ∨ (seqBytes = [0x00] ∧ seq = 0#64)
  behind : elements.bytes ++ tail = seqBytes ++ stream.bytes
  reads : Reads stream.bytes pairs left

namespace Layout

-- RLP([seq, k1, v1, ...]), the bytes the signature is meant for.
def content (layout : Layout raw) : List UInt8 :=
  listHeader layout.elements.length ++ layout.elements.bytes

def start (layout : Layout raw) : EnrRecord :=
  { (({ EnrRecord.new with rawRlp := raw.bytes }).setExtra sigKey layout.sig.toList).setExtra contentKey layout.content
    with seq := layout.seq }

def record (text : AddressText) (layout : Layout raw) : EnrRecord :=
  layout.pairs.foldl (applyPair text) layout.start

end Layout

theorem wrapContent_eq (some : elements ≠ []) (fits : elements.length < sizeLimit) :
    wrapContent elements = .ok (listHeader elements.length ++ elements) := by
  unfold wrapContent
  cases begun : RlpEncoder.new.beginList with
  | error error => cases begun
  | ok opened =>
    rw [ok_bind,addRaw_eq opened some,ok_bind,
      endList_eq .new elements begun (by rw [RlpEncoder.new,List.length_nil,Nat.zero_add]; exact fits)]
    rfl

theorem readSeq_exact (v : ByteView) (seq : BitVec 64) (rest : ByteView) : readIntegral .uint64 v = .ok (seq,rest) ↔
      ∃ seqBytes, (seqBytes = encodeScalar seq.toNat ∨ (seqBytes = [0x00] ∧ seq = 0#64)) ∧
        v.bytes = seqBytes ++ rest.bytes := by
  refine (readUnsigned_exact (.integral .uint64) v seq rest).trans ⟨?_,?_⟩
  · intro spelled
    rcases spelled with shortest | ⟨single,zero⟩
    · exact ⟨_,.inl rfl,shortest⟩
    · exact ⟨_,.inr ⟨rfl,zero⟩,single⟩
  · rintro ⟨seqBytes,number,bytes⟩
    rcases number with rfl | ⟨rfl,zero⟩
    · exact .inl bytes
    · exact .inr ⟨bytes,zero⟩

namespace Layout

def opening (layout : Layout raw) (view rest : ByteView) : Opening :=
  ⟨66 + layout.elements.length,view,layout.sig,rest⟩

theorem opens (layout : Layout raw) : ∃ view rest, readSignature raw = .ok (layout.opening view rest) ∧
      rest.bytes = layout.elements.bytes ++ layout.tail := by
  refine readSignature_spelled (66 + layout.elements.length) layout.sig ?_ layout.outer
  rw [List.length_append]
  exact Nat.add_le_add_left (Nat.le_add_right _ _) 66

theorem decodes (layout : Layout raw) (text : AddressText) : decodeRlp text raw =
      if (layout.record text).compressedPubkey = .zeros 33 then .error (.returned .kEnrMissingSecp256k1Key)
      else .ok (layout.record text) := by
  obtain ⟨view,rest,read,signature⟩ := layout.opens
  have consumed := (Opening.sigConsumed_eq read).1
  have room := ((readSignature_exact raw _).mp read).2.1
  have long := Nat.lt_of_le_of_lt room view.length_lt
  have cut : (layout.opening view rest).contentElementsLen = layout.elements.length := by
    rw [Opening.contentElementsLen,consumed]
    show sizeSub (66 + layout.elements.length) 66 = _
    rw [sizeSub_small (Nat.le_add_right _ _) long,Nat.add_sub_cancel_left]
  have inside := (Opening.content_inside_iff read).mpr (Nat.le_add_right _ _)
  have content : contentBytes (layout.opening view rest) = .ok layout.content := by
    unfold contentBytes
    have elements : (layout.opening view rest).afterSig.bytes.take layout.elements.length = layout.elements.bytes := by
      show rest.bytes.take layout.elements.bytes.length = _
      rw [signature,List.take_left]
    rw [if_neg (Nat.not_lt.mpr inside),cut,elements,wrapContent_eq layout.nonempty layout.elements.fits]
    rfl
  have seq : readIntegral .uint64 (layout.opening view rest).afterSig = .ok (layout.seq,layout.stream) :=
    (readSeq_exact rest layout.seq layout.stream).mpr ⟨_,layout.number,by rw [signature,layout.behind]⟩
  obtain ⟨left,reads⟩ := readPairs_reads layout.stream (Nat.le_refl _)
  have pairs := (reads.unique layout.reads layout.stream.fits).1
  unfold decodeRlp
  rw [read]
  dsimp only
  rw [content,ok_bind,seq]
  dsimp only
  rw [readFields_eq,pairs]
  rfl

theorem record_unique (layout : Layout raw) (decoded : decodeRlp text raw = .ok parsed) : parsed = layout.record text := by
  rw [layout.decodes text] at decoded
  split_ifs at decoded
  cases decoded; rfl

end Layout

theorem contentBytes_sound (cut : contentBytes o = .ok content) :
    o.contentElementsLen ≤ o.afterSig.length ∧ o.afterSig.bytes.take o.contentElementsLen ≠ [] := by
  unfold contentBytes at cut
  split_ifs at cut with inside
  refine ⟨Nat.le_of_not_lt inside,?_⟩
  intro none
  rw [none] at cut
  cases cut

theorem decodeRlp_layout (decoded : decodeRlp text raw = .ok record) : Nonempty (Layout raw) := by
  unfold decodeRlp at decoded
  split at decoded
  · cases decoded
  rename_i o read
  obtain ⟨content,cut,decoded⟩ := bind_ok.mp decoded
  split at decoded
  · cases decoded
  rename_i seq stream number
  obtain ⟨inside,some⟩ := contentBytes_sound cut
  obtain ⟨header,room,signature⟩ := (readSignature_exact raw o).mp read
  obtain ⟨consumed,total⟩ := Opening.sigConsumed_eq read
  have long := (Opening.content_inside_iff read).mp inside
  have fits := o.afterListHeader.length_lt
  have width : o.contentElementsLen = o.listPayloadLen - 66 := by
    rw [Opening.contentElementsLen,consumed,sizeSub_small long (by omega)]
  have size : (o.afterSig.substr 0 o.contentElementsLen).length = o.listPayloadLen - 66 := by
    rw [ByteView.length,ByteView.substr_bytes,List.drop_zero,List.length_take,← width]
    exact Nat.min_eq_left inside
  have whole : (o.afterSig.substr 0 o.contentElementsLen).bytes ++ o.afterSig.bytes.drop o.contentElementsLen =
      o.afterSig.bytes := by
    rw [ByteView.substr_bytes,List.drop_zero,List.take_append_drop]
  obtain ⟨seqBytes,spelled,bytes⟩ := (readSeq_exact ..).mp number
  obtain ⟨left,reads⟩ := readPairs_reads stream (Nat.le_refl _)
  refine ⟨⟨o.sigBytes,o.afterSig.substr 0 o.contentElementsLen,o.afterSig.bytes.drop o.contentElementsLen,seqBytes,
    seq,stream,_,left,some,?_,spelled,whole.trans bytes,reads⟩⟩
  rw [whole,size,Nat.add_sub_cancel' long,← signature,header]

end EvmRelay.Enr
