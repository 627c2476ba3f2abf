import EvmRelay.EthRoundTrip

namespace EvmRelay.Eth
open Rlp RlpSpec Reader Codec

-- Without a request id the encoders write one list, and the decoders still
-- look for the content one level further in.

-- A list that is, one level further in, read as the list of its own items has
-- one item, and in that item there is one item again.
theorem nested_single
    (written : Wire.list (Wire.each wire values.items) = some (encodeList content)) (formed : ListForm form content values)
    (items : ∀ item piece,wire item = some piece → IsItem piece) (small : (encodeList content).length < sizeLimit) :
    ∃ item piece,wire item = some (encodeList piece) ∧ form piece item ∧ content = encodeList piece := by
  obtain ⟨payload,each,same⟩ := Option.map_eq_some_iff.mp written
  obtain ⟨pieces,all,rfl⟩ := (Wire.each_pieces ..).mp each
  obtain ⟨parts,formed,rfl⟩ := formed
  have cut := encodeList_same same (by rwa [same])
  have single : pieces = [encodeList parts.flatten] := by
    apply items_same
    · have wired := all.flip
      exact pieces_all (fun piece item => items item piece) wired
    · simpa using IsItem.list _
    · simpa using cut
    · rw [cut]
      rw [encodeList,List.length_append] at small
      omega
  rw [single] at all
  generalize values.items = kept at all formed
  cases all with
  | @cons item _ _ _ one none =>
    cases none
    cases formed with
    | @cons piece _ _ _ two none =>
      cases none
      exact ⟨item,piece,by simpa using one,two,by simp⟩

theorem hash_nested (written : hashListWire hashes = some (encodeList content))
    (small : (encodeList content).length < sizeLimit) : ¬ HashListForm content hashes := by
  intro formed
  have wired : Wire.list (Wire.each (fun hash => some (fixedWire hash)) hashes.items) = some (encodeList content) := by
    rw [Wire.each_some]
    exact written
  obtain ⟨hash,piece,string,rfl,_⟩ := nested_single wired formed (fun hash piece same => by cases same; exact .string _) small
  exact encodeList_other (Option.some.inj string)

theorem headers_nested
    (written : headersWire headers = some (encodeList content)) (small : (encodeList content).length < sizeLimit) :
    ¬ HeadersForm content headers := by
  intro formed
  have wired : Wire.list (Wire.each (fun header => some (blockHeaderWire header)) headers.items) = some (encodeList content) := by
    rw [Wire.each_some]
    exact written
  obtain ⟨header,piece,same,⟨whole,_⟩,rfl⟩ := nested_single wired formed (fun header piece same => by cases same; exact .list _) small
  have fits := encodeList_shorter small
  have fields := (encodeList_same (Option.some.inj same).symm fits).trans (List.append_assoc (fixedWire header.parentHash) _ _)
  refine item_not_followed whole (.string _) fields ?_ (encodeList_shorter fits)
  simp [fixedWire,encodeString_nonempty]

theorem receiptHead_item (written : receiptHeadWire receipt = some head) : IsItem head := by
  unfold receiptHeadWire at written
  split at written
  · cases written
    exact .string _
  · cases written
    exact .string _
  · cases written

theorem listWire_item {wire : Wire} (written : wire.list = some piece) : IsItem piece := by
  obtain ⟨payload,_,rfl⟩ := Option.map_eq_some_iff.mp written
  exact .list payload

theorem receipts_nested
    (written : receiptsWire blocks = some (encodeList content)) (small : (encodeList content).length < sizeLimit) :
    ¬ ReceiptsForm content blocks := by
  intro formed
  obtain ⟨block,piece,wired,inside,rfl⟩ := nested_single written formed (fun _ _ => listWire_item) small
  have fits := encodeList_shorter small
  obtain ⟨receipt,part,same,⟨whole,_⟩,rfl⟩ := nested_single wired inside (fun _ _ => listWire_item) fits
  obtain ⟨payload,joined,spelled⟩ := Option.map_eq_some_iff.mp same
  obtain ⟨head,first,rest⟩ := Option.bind_eq_some_iff.mp joined
  cases rest
  have room := encodeList_shorter fits
  have cut := encodeList_same spelled.symm room
  refine item_not_followed whole (receiptHead_item first) cut ?_ (encodeList_shorter room)
  simp [receiptTailWire,encodeScalar,encodeString_nonempty]

theorem bodies_nested
    (written : bodiesWire bodies = some (encodeList content)) (small : (encodeList content).length < sizeLimit) :
    ¬ BodiesForm content bodies := by
  intro formed
  obtain ⟨body,piece,same,inside,rfl⟩ := nested_single written formed (fun _ _ => listWire_item) small
  have fits := encodeList_shorter small
  obtain ⟨payload,joined,spelled⟩ := Option.map_eq_some_iff.mp same
  obtain ⟨txs,first,rest⟩ := Option.bind_eq_some_iff.mp joined
  cases rest
  have cut := encodeList_same spelled.symm fits
  obtain ⟨listed,rfl⟩ := inside.list
  exact item_not_followed (.list listed) (listWire_item first) cut (encodeList_nonempty _) (encodeList_shorter fits)

theorem pooled_nested (written : pooledWire txs = some (encodeList content)) : ¬ PooledForm content txs := by
  intro formed
  obtain ⟨payload,each,same⟩ := Option.map_eq_some_iff.mp written
  obtain ⟨pieces,all,rfl⟩ := (Wire.each_pieces ..).mp each
  obtain ⟨parts,formed,rfl⟩ := formed
  -- The transactions are the items that were read, so these would be as long
  -- as their list.
  have read : parts = txs.items.map StdVector.items := by
    have each := List.forall₂_map_right_iff.mpr (formed.imp fun _ _ one => one.1)
    rwa [List.forall₂_eq_eq_eq] at each
  have sent : pieces = txs.items.map StdVector.items := by
    have raw : List.Forall₂ (fun piece (tx : StdVector UInt8) => piece = tx.items) pieces txs.items := by
      refine all.flip.imp fun piece tx one => ?_
      unfold rawWire at one
      split_ifs at one
      exact (Option.some.inj one).symm
    have each := List.forall₂_map_right_iff.mpr raw
    rwa [List.forall₂_eq_eq_eq] at each
  rw [sent,← read] at same
  exact encodeList_other same

theorem absent_not_returned {wire : α → Wire} {read : Decoder α}
    (writes : ∀ content,Writes (payload content) (wire content)) (exact_ : Exact read form)
    (lists : ∀ piece value,form piece value → ∃ payload,piece = encodeList payload)
    (listed : ∀ bytes,wire sent = some bytes → ∃ content,bytes = encodeList content)
    (nested : ∀ content,wire sent = some (encodeList content) → (encodeList content).length < sizeLimit → ¬ form content sent)
    (accepted : encodeRequest payload ⟨none,sent⟩ = .ok v.bytes) :
    decodeRequest (fun _ => read) v ≠ .ok ⟨none,sent⟩ := by
  intro decoded
  have written := (encodeRequest_exact writes _ v.fits).mp accepted
  obtain ⟨content,spelled⟩ := listed v.bytes written
  obtain ⟨size,_,headed,room,_,found,rfl,none,formed⟩ := (request_exact exact_ lists v _).mp decoded
  have fits := v.fits
  rw [spelled] at written headed fits
  obtain ⟨_,same⟩ := listHeader_same headed (Nat.le_refl _) room fits
  rw [show _ = [] from none,List.nil_append] at same
  exact nested content written fits (same ▸ formed)

theorem query_absent_iff (accepted : encodeGetBlockHeaders ⟨none,query⟩ = .ok v.bytes) :
    decodeGetBlockHeaders v = .ok ⟨none,query⟩ ↔ query.startHash.isSome ≠ query.startNumber.isSome := by
  have written : queryWire query = some v.bytes := (encodeRequest_exact query_writes _ v.fits).mp accepted
  unfold queryWire at written
  split_ifs at written with one
  have spelled := (Option.some.inj written).symm
  rw [queryRequest_exact]
  constructor
  · rintro ⟨size,payload,headed,room,formed⟩
    obtain ⟨start,_,_,_,_,started,_⟩ : QueryForm payload query := formed
    intro same
    rcases started with ⟨hash,both,_⟩ | ⟨number,both,_⟩
    · simp [(Prod.mk.inj both).1,(Prod.mk.inj both).2] at same
    · simp [(Prod.mk.inj both).1,(Prod.mk.inj both).2] at same
  · intro single
    exact ⟨_,_,spelled,Nat.le_refl _,query_formed single⟩

-- What each encoder accepts without a request id: the query comes back exactly
-- if one start is set, nothing else ever does.
theorem absent_id_returned_iff (v : ByteView) : (∀ query,encodeGetBlockHeaders ⟨none,query⟩ = .ok v.bytes →
      (decodeGetBlockHeaders v = .ok ⟨none,query⟩ ↔ query.startHash.isSome ≠ query.startNumber.isSome)) ∧
    (∀ headers,encodeBlockHeaders ⟨none,headers⟩ = .ok v.bytes → decodeBlockHeaders v ≠ .ok ⟨none,headers⟩) ∧
    (∀ hashes,encodeGetBlockBodies ⟨none,hashes⟩ = .ok v.bytes → decodeGetBlockBodies v ≠ .ok ⟨none,hashes⟩) ∧
    (∀ bodies,encodeBlockBodies ⟨none,bodies⟩ = .ok v.bytes → decodeBlockBodies v ≠ .ok ⟨none,bodies⟩) ∧
    (∀ hashes,encodeGetReceipts ⟨none,hashes⟩ = .ok v.bytes → decodeGetReceipts v ≠ .ok ⟨none,hashes⟩) ∧
    (∀ blocks,encodeReceipts ⟨none,blocks⟩ = .ok v.bytes → decodeReceipts v ≠ .ok ⟨none,blocks⟩) ∧
    (∀ hashes,encodeGetPooledTransactions ⟨none,hashes⟩ = .ok v.bytes → decodeGetPooledTransactions v ≠ .ok ⟨none,hashes⟩) ∧
    (∀ txs,encodePooledTransactions ⟨none,txs⟩ = .ok v.bytes → decodePooledTransactions v ≠ .ok ⟨none,txs⟩) := by
  have listed {wire : Wire} (bytes : List UInt8) (written : wire.list = some bytes) : ∃ content,bytes = encodeList content := by
    obtain ⟨payload,_,rfl⟩ := Option.map_eq_some_iff.mp written
    exact ⟨payload,rfl⟩
  have hashes (hashes : StdVector Hash256) (accepted : encodeRequest encodeHashList ⟨none,hashes⟩ = .ok v.bytes) :
      decodeRequest (fun _ => decodeHashList) v ≠ .ok ⟨none,hashes⟩ :=
    absent_not_returned hashList_writes hashList_exact (fun _ _ formed => formed.list)
      (fun _ written => ⟨_,(Option.some.inj written).symm⟩) (fun _ => hash_nested) accepted
  refine ⟨fun query => query_absent_iff,?_,hashes,?_,hashes,?_,hashes,?_⟩
  · intro headers
    exact absent_not_returned headers_writes headers_exact (fun _ _ formed => formed.list)
      (fun _ written => ⟨_,(Option.some.inj written).symm⟩) fun _ => headers_nested
  · intro bodies
    exact absent_not_returned bodies_writes bodies_exact (fun _ _ formed => formed.list) listed fun _ => bodies_nested
  · intro blocks
    exact absent_not_returned receipts_writes receipts_exact (fun _ _ formed => formed.list) listed fun _ => receipts_nested
  · intro txs
    exact absent_not_returned pooled_writes pooled_exact (fun _ _ formed => formed.list) listed
      fun _ written _ => pooled_nested written

def firstHeadersBytes : ByteView := ⟨[0xC5,0x01,0x81,0xC0,0x80,0x80],by decide⟩

theorem first_headers_returned : encodeGetBlockHeaders ⟨none,firstHeaders⟩ = .ok firstHeadersBytes.bytes ∧
    decodeGetBlockHeaders firstHeadersBytes = .ok ⟨none,firstHeaders⟩ := by
  have accepted : encodeGetBlockHeaders ⟨none,firstHeaders⟩ = .ok firstHeadersBytes.bytes := by decide +kernel
  exact ⟨accepted,((absent_id_returned_iff ..).1 firstHeaders accepted).mpr (by decide)⟩

def oneHashBytes : ByteView := ⟨0xE1 :: 0xA0 :: List.replicate 32 0,by decide⟩

theorem one_hash_not_read : encodeGetReceipts ⟨none,.singleton (.zeros 32)⟩ = .ok oneHashBytes.bytes ∧
    decodeGetReceipts oneHashBytes = .error .kUnexpectedString := by
  constructor
  · decide +kernel
  · decide +kernel

end EvmRelay.Eth
