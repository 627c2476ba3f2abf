import EvmRelay.ObjectCodec

namespace EvmRelay.Codec
open Rlp RlpSpec Reader

def HoldsItems (count : Nat) (payload : List UInt8) : Prop :=
  ∃ items : List (List UInt8),∃ rest,items.length = count ∧ (∀ item ∈ items,IsItem item) ∧ payload = items.flatten ++ rest

def TakesItems (count : Nat) (read : Decoder α) : Prop :=
  ∀ v value rest,read v = .ok (value,rest) → ∃ items : List (List UInt8),items.length = count ∧
    (∀ item ∈ items,IsItem item) ∧ v.bytes = items.flatten ++ rest.bytes ∧ Reads read items.flatten value

theorem TakesItems.one {read : Decoder α} (exact_ : Exact read form)
    (items : ∀ piece value,form piece value → IsItem piece) : TakesItems 1 read := by
  intro v value rest ran
  obtain ⟨piece,spelled,formed⟩ := (exact_ v value rest).mp ran
  refine ⟨[piece],rfl,?_,?_,?_⟩
  · simpa using items piece value formed
  · simpa using spelled
  · simpa using exact_.reads formed

theorem TakesItems.pure (value : α) : TakesItems 0 (pure value : Decoder α) := by
  intro v found rest ran
  cases ran
  exact ⟨[],rfl,by simp,rfl,.pure value⟩

theorem TakesItems.bind {read : Decoder α} (first : TakesItems count read)
    (second : ∀ found,TakesItems more (next found)) : TakesItems (count + more) (read >>= next) := by
  intro v value rest ran
  obtain ⟨found,view,one,two⟩ := bind_ok_iff.mp ran
  obtain ⟨items,counted,all,spelled,reads⟩ := first v found view one
  obtain ⟨others,others_,each,behind,follows⟩ := second found view value rest two
  refine ⟨items ++ others,by simp [counted,others_],?_,?_,?_⟩
  · intro item member
    rcases List.mem_append.mp member with inside | inside
    · exact all item inside
    · exact each item inside
  · rw [spelled,behind,List.flatten_append,List.append_assoc]
  · rw [List.flatten_append]
    exact reads.bind follows

theorem TakesItems.orError {read : Decoder α} (takes : TakesItems count read) (error : DecodingError) :
    TakesItems count (orError read error) := by
  intro v value rest ran
  obtain ⟨items,counted,all,spelled,reads⟩ := takes v value rest (orError_ok.mp ran)
  exact ⟨items,counted,all,spelled,orError_reads error reads⟩

theorem TakesItems.holds {read : Decoder α} (takes : TakesItems count read) (ran : read v = .ok (value,rest)) :
    HoldsItems count v.bytes := by
  obtain ⟨items,counted,all,spelled,_⟩ := takes v value rest ran
  exact ⟨items,rest.bytes,counted,all,spelled⟩

theorem items_front {items others : List (List UInt8)} (count : items.length = others.length) (all : ∀ item ∈ items,IsItem item)
    (each : ∀ item ∈ others,IsItem item) (spelled : items.flatten ++ back = others.flatten ++ rest)
    (small : (items.flatten ++ back).length < sizeLimit) : items = others := by
  induction items generalizing others with
  | nil =>
    exact (List.length_eq_zero_iff.mp count.symm).symm
  | cons item items ih =>
    cases others with
    | nil => simp at count
    | cons other others =>
      rw [List.flatten_cons,List.flatten_cons,List.append_assoc,List.append_assoc] at spelled
      rw [List.flatten_cons,List.append_assoc] at small
      obtain ⟨rfl,behind⟩ := (all item List.mem_cons_self).same (each other List.mem_cons_self) spelled small
      cases ih (by simpa using count) (fun item member => all item (List.mem_cons_of_mem _ member))
        (fun item member => each item (List.mem_cons_of_mem _ member)) behind (back_fits small)
      rfl

theorem TakesItems.inside {read : Decoder α} (takes : TakesItems count read)
    (spelled : v.bytes = front.bytes ++ rest) (holds : HoldsItems count front.bytes) (ran : read v = .ok (value,left)) :
    ∃ before,read front = .ok (value,before) := by
  obtain ⟨items,counted,all,taken,reads⟩ := takes v value left ran
  obtain ⟨others,more,held,each,same⟩ := holds
  have fits := v.fits
  rw [taken] at fits
  rw [taken,same,List.append_assoc] at spelled
  cases items_front (counted.trans held.symm) all each spelled fits
  obtain ⟨before,same,_⟩ := front.cut same
  exact ⟨before,reads front before same⟩

theorem readFields_inside (takes : TakesItems count fields)
    (spelled : v.bytes = encodeList payload ++ rest) (ran : readFields fields v = .ok value)
    (cut : list.bytes = encodeList payload) : readFields fields list = .ok value ↔ HoldsItems count payload := by
  obtain ⟨front,headed,behind⟩ := listHeader_reads cut (Nat.le_refl _)
  constructor
  · intro read
    obtain ⟨_,taken,read⟩ := bind_ok.mp read
    cases headed.symm.trans taken
    obtain ⟨⟨_,left⟩,read,_⟩ := bind_ok.mp read
    exact behind ▸ takes.holds read
  · intro holds
    obtain ⟨⟨size,view⟩,taken,read⟩ := bind_ok.mp ran
    obtain ⟨⟨found,left⟩,read,same⟩ := bind_ok.mp read
    cases same
    obtain ⟨listed,room⟩ := (readListHeaderBytes_exact ..).mp taken
    have fits := v.fits
    rw [listed] at spelled fits
    rw [encodeList,List.append_assoc] at spelled
    obtain ⟨_,same⟩ := listHeader_same spelled room (by simp) fits
    obtain ⟨before,inside⟩ := takes.inside (behind ▸ same) (behind ▸ holds) read
    exact bind_ok.mpr ⟨_,headed,bind_ok.mpr ⟨_,inside,rfl⟩⟩

theorem readFixed_items (count : Nat) : TakesItems 1 (readFixed count) :=
  .one (readFixed_exact count) fun _ _ formed => formed ▸ .string _

theorem unsigned_item (formed : UnsignedForm piece value) : IsItem piece := by
  obtain ⟨payload,rfl,_⟩ := formed.string
  exact .string payload

theorem readWord_items : TakesItems 1 readWord := .one readWord_exact fun _ _ => unsigned_item

theorem readUint64_items : TakesItems 1 readUint64 := .one readUint64_exact fun _ _ => unsigned_item

theorem readByteBuffer_items : TakesItems 1 readByteBuffer := .one readByteBuffer_exact fun _ _ formed => formed ▸ .string _

theorem readListOf_items {read : Decoder α} (takes : TakesItems 1 read) : TakesItems 1 (readListOf read) := by
  have exact_ : Exact read fun piece value => IsItem piece ∧ Reads read piece value := by
    intro v value rest
    constructor
    · intro ran
      obtain ⟨items,single,all,spelled,reads⟩ := takes v value rest ran
      obtain ⟨piece,rfl⟩ := List.length_eq_one_iff.mp single
      refine ⟨piece,by simpa using spelled,by simpa using all,by simpa using reads⟩
    · rintro ⟨piece,spelled,_,reads⟩
      exact reads v rest spelled
  refine .one (readListOf_exact exact_ fun _ _ formed => formed.1.nonempty) fun _ _ formed => ?_
  obtain ⟨payload,rfl⟩ := formed.list
  exact .list payload

theorem readList_items {read : Decoder α} (takes : TakesItems count read) : TakesItems 1 (readList fun _ => read) := by
  intro v value rest ran
  have suffix (target : Nat) (v : ByteView) (value : α) (rest : ByteView) (ran : read v = .ok (value,rest)) :
      ∃ taken,v.bytes = taken ++ rest.bytes := by
    obtain ⟨items,_,_,spelled,_⟩ := takes v value rest ran
    exact ⟨_,spelled⟩
  obtain ⟨payload,view,spelled,behind,inside⟩ := readList_sound suffix ran
  obtain ⟨items,_,_,cut,reads⟩ := takes view value rest inside
  have same := List.append_cancel_right (behind.symm.trans cut)
  refine ⟨[encodeList payload],rfl,by simpa using IsItem.list payload,by simpa using spelled,?_⟩
  rw [same]
  simpa using readList_reads reads

theorem logEntry_items : TakesItems 1 decodeLogEntryFromDecoder :=
  readList_items <| ((readFixed_items 20).orError _).bind fun _ =>
    (readListOf_items ((readFixed_items 32).orError _)).bind fun _ => (readByteBuffer_items.orError _).bind fun _ => .pure _

theorem accessListEntry_items : TakesItems 1 decodeAccessListEntryFromDecoder :=
  readList_items <| ((readFixed_items 20).orError _).bind fun _ =>
    (readListOf_items ((readFixed_items 32).orError _)).bind fun _ => .pure _

theorem accessList_items : TakesItems 1 decodeAccessList := readListOf_items accessListEntry_items

def statusOf (payload : List UInt8) : Except DecodingError (Option Hash256 × Option Bool) :=
  if width : payload.length = 32 then .ok (some ⟨payload,width⟩,none)
  else match payload with
    | [] => .ok (none,some false)
    | [byte] => .ok (none,some (decide (byte ≠ 0)))
    | _ => .error .kUnexpectedLength

theorem statusOrStateRoot_exact : Exact decodeStatusOrStateRoot fun piece found =>
    ∃ payload,piece = encodeString payload ∧ statusOf payload = .ok found := by
  apply string_exact
  · intro v found ran
    obtain ⟨h,peeked,checked⟩ := bind_ok.mp ran
    cases kind : h.list with
    | true => simp [kind] at checked
    | false => exact ⟨h,peeked,kind⟩
  · intro v rest payload spelled
    obtain ⟨offset,peeked,_⟩ := string_layout spelled
    unfold decodeStatusOrStateRoot statusOf
    rw [peeked,ok_bind]
    rw [if_neg Bool.false_ne_true]
    by_cases width : payload.length = 32
    · rw [if_pos width,dif_pos width,readFixed_string 32 spelled,dif_pos width]
      rfl
    · rw [if_neg width,dif_neg width,readBytes_complete spelled,ok_bind]
      rcases payload with _ | ⟨byte,_ | ⟨next,more⟩⟩
      · rfl
      · rfl
      · rfl

theorem statusOrStateRoot_items : TakesItems 1 decodeStatusOrStateRoot :=
  .one statusOrStateRoot_exact fun piece found formed => by
    obtain ⟨payload,rfl,_⟩ := formed
    exact .string payload

theorem readTo_exact : Exact readTo fun piece toAddress => piece = encodeString (toBytes toAddress) := by
  intro v toAddress rest
  constructor
  · intro ran
    obtain ⟨h,peeked,ran⟩ := bind_ok.mp ran
    split_ifs at ran with empty
    · obtain ⟨⟨bytes,view⟩,read,same⟩ := bind_ok.mp ran
      cases same
      have spelled := readBytes_sound (orError_ok.mp read)
      obtain ⟨offset,found,_⟩ := string_layout spelled
      cases peeked.symm.trans found
      rw [List.length_eq_zero_iff.mp empty] at spelled
      exact ⟨_,spelled,rfl⟩
    · obtain ⟨⟨address,view⟩,read,same⟩ := bind_ok.mp ran
      cases same
      exact (orError_exact _ (readFixed_exact 20) v address rest).mp read
  · rintro ⟨_,spelled,rfl⟩
    exact to_read toAddress v rest spelled

theorem readTo_items : TakesItems 1 readTo := .one readTo_exact fun _ _ formed => formed ▸ .string _

theorem receiptFields_items : TakesItems 4 readReceiptFields :=
  statusOrStateRoot_items.bind fun _ => (readWord_items.orError _).bind fun _ => ((readFixed_items 256).orError _).bind fun _ =>
    (readListOf_items logEntry_items).bind fun _ => .pure _

theorem legacyFields_items : TakesItems 9 readLegacyFields :=
  (readUint64_items.orError _).bind fun _ => (readWord_items.orError _).bind fun _ => (readUint64_items.orError _).bind fun _ =>
    readTo_items.bind fun _ => (readWord_items.orError _).bind fun _ => (readByteBuffer_items.orError _).bind fun _ =>
    (readWord_items.orError _).bind fun _ => (readWord_items.orError _).bind fun _ => (readWord_items.orError _).bind fun _ => .pure _

theorem typedFields_items (fees : TakesItems count (readFees type)) : TakesItems (1 + (1 + (count + 8))) (readTypedFields type) :=
  (readUint64_items.orError _).bind fun _ => (readUint64_items.orError _).bind fun _ => fees.bind fun _ =>
    (readUint64_items.orError _).bind fun _ => readTo_items.bind fun _ => (readWord_items.orError _).bind fun _ =>
    (readByteBuffer_items.orError _).bind fun _ => accessList_items.bind fun _ => (readWord_items.orError _).bind fun _ =>
    (readWord_items.orError _).bind fun _ => (readWord_items.orError _).bind fun _ => .pure _

theorem accessListFields_items : TakesItems 11 (readTypedFields .kAccessList) := by
  have fees : TakesItems 1 (readFees .kAccessList) := (readWord_items.orError _).bind fun _ => .pure _
  exact typedFields_items fees

theorem dynamicFeeFields_items : TakesItems 12 (readTypedFields .kDynamicFee) := by
  have fees : TakesItems 2 (readFees .kDynamicFee) := (readWord_items.orError _).bind fun _ => (readWord_items.orError _).bind fun _ => .pure _
  exact typedFields_items fees

def TypeLead (lead : List UInt8) : Prop := lead = [] ∨ ∃ type,lead = [type] ∧ type < kRlpListPrefixMin

def ReadInside (decode : ByteView → Except DecodingError α) (bytes : List UInt8) (value : α) : Prop :=
  ∃ lead payload rest,bytes = lead ++ (encodeList payload ++ rest) ∧ TypeLead lead ∧
    ∃ object : ByteView,object.bytes = lead ++ encodeList payload ∧ decode object = .ok value

theorem stripTypeByte_lead (leads : TypeLead lead)
    (spelled : v.bytes = lead ++ (encodeList payload ++ rest)) : (stripTypeByte v).bytes = encodeList payload ++ rest := by
  rcases leads with rfl | ⟨type,rfl,low⟩
  · rw [stripTypeByte_list rest spelled]
    exact spelled
  · unfold stripTypeByte
    rw [spelled]
    show (if type < kRlpListPrefixMin then v.removePrefix kTypedTxPrefixSize else v).bytes = _
    rw [if_pos low,ByteView.removePrefix_bytes,spelled]
    rfl

def ReceiptShape (bytes : List UInt8) : Prop :=
  ∃ lead payload rest,bytes = lead ++ (encodeList payload ++ rest) ∧ TypeLead lead ∧ HoldsItems 4 payload

theorem inside_cut {decode : ByteView → Except DecodingError α} (takes : TakesItems count fields)
    (decodes : ∀ (v : ByteView) payload rest,v.bytes = lead ++ (encodeList payload ++ rest) →
      ∃ list : ByteView,list.bytes = encodeList payload ++ rest ∧ decode v = readFields fields list)
    (spelled : v.bytes = lead ++ (encodeList payload ++ rest))
    (decoded : decode v = .ok value) (alone : object.bytes = lead ++ encodeList payload) :
    decode object = .ok value ↔ HoldsItems count payload := by
  obtain ⟨whole,cut,same⟩ := decodes v payload rest spelled
  obtain ⟨part,list,other⟩ := decodes object payload [] (by rw [alone,List.append_nil])
  rw [List.append_nil] at list
  rw [same] at decoded
  rw [other]
  exact readFields_inside takes cut decoded list

theorem object_alone {v : ByteView} (spelled : v.bytes = lead ++ (encodeList payload ++ rest)) :
    ∃ object : ByteView,object.bytes = lead ++ encodeList payload := by
  have fits := v.fits
  rw [spelled,List.length_append,List.length_append] at fits
  exact ⟨⟨lead ++ encodeList payload,by rw [List.length_append]; omega⟩,rfl⟩

theorem receipt_inside_iff (decoded : decodeReceipt v = .ok receipt) :
    ReadInside decodeReceipt v.bytes receipt ↔ ReceiptShape v.bytes := by
  have decodes {lead : List UInt8} (leads : TypeLead lead) (v : ByteView) (payload rest : List UInt8)
      (spelled : v.bytes = lead ++ (encodeList payload ++ rest)) :
      ∃ list : ByteView,list.bytes = encodeList payload ++ rest ∧ decodeReceipt v = readFields readReceiptFields list :=
    ⟨stripTypeByte v,stripTypeByte_lead leads spelled,rfl⟩
  constructor
  · rintro ⟨lead,payload,rest,spelled,leads,object,alone,read⟩
    have holds := (inside_cut receiptFields_items (decodes leads) spelled decoded alone).mp read
    exact ⟨lead,payload,rest,spelled,leads,holds⟩
  · rintro ⟨lead,payload,rest,spelled,leads,holds⟩
    obtain ⟨object,alone⟩ := object_alone spelled
    have read := (inside_cut receiptFields_items (decodes leads) spelled decoded alone).mpr holds
    exact ⟨lead,payload,rest,spelled,leads,object,alone,read⟩

-- Nothing but the type byte is read of a deposit.
def TransactionInside (bytes : List UInt8) (tx : Transaction) : Prop :=
  (∃ more,bytes = TransactionType.kOpDeposit.byte :: more) ∨ ReadInside decodeTransaction bytes tx

inductive FieldCount : List UInt8 → Nat → Prop where
  | legacy : FieldCount [] 9
  | accessList : FieldCount [TransactionType.kAccessList.byte] 11
  | dynamicFee : FieldCount [TransactionType.kDynamicFee.byte] 12

def TransactionShape (bytes : List UInt8) : Prop :=
  (∃ more,bytes = TransactionType.kOpDeposit.byte :: more) ∨
  ∃ lead payload rest count,bytes = lead ++ (encodeList payload ++ rest) ∧ FieldCount lead count ∧ HoldsItems count payload

theorem FieldCount.typeLead (counted : FieldCount lead count) : TypeLead lead := by
  cases counted with
  | legacy => exact Or.inl rfl
  | _ => exact Or.inr ⟨_,rfl,by decide⟩

theorem legacy_decodes (spelled : v.bytes = encodeList payload ++ rest) :
    decodeTransaction v = readFields readLegacyFields v := by
  have fits := v.fits
  rw [spelled] at fits
  obtain ⟨first,more,lead,above⟩ := encodeList_first (encodeList_shorter (front_fits fits))
  unfold decodeTransaction
  rw [spelled,lead]
  exact if_neg (UInt8.not_lt.mpr above)

theorem typed_decodes (typed : type = .kAccessList ∨ type = .kDynamicFee)
    (spelled : v.bytes = [type.byte] ++ (encodeList payload ++ rest)) :
    ∃ list : ByteView,list.bytes = encodeList payload ++ rest ∧ decodeTransaction v = readFields (readTypedFields type) list := by
  refine ⟨v.removePrefix kTypedTxPrefixSize,?_,?_⟩
  · rw [ByteView.removePrefix_bytes,spelled]
    rfl
  · unfold decodeTransaction
    rw [spelled]
    rcases typed with rfl | rfl
    · rfl
    · rfl

theorem FieldCount.cut (counted : FieldCount lead count)
    (spelled : v.bytes = lead ++ (encodeList payload ++ rest)) (decoded : decodeTransaction v = .ok tx)
    (alone : object.bytes = lead ++ encodeList payload) : decodeTransaction object = .ok tx ↔ HoldsItems count payload := by
  cases counted with
  | legacy =>
    have decodes (v : ByteView) (payload rest : List UInt8) (spelled : v.bytes = [] ++ (encodeList payload ++ rest)) :
        ∃ list : ByteView,list.bytes = encodeList payload ++ rest ∧ decodeTransaction v = readFields readLegacyFields list :=
      ⟨v,spelled,legacy_decodes spelled⟩
    exact inside_cut legacyFields_items decodes spelled decoded alone
  | accessList => exact inside_cut accessListFields_items (fun _ _ _ => typed_decodes (.inl rfl)) spelled decoded alone
  | dynamicFee => exact inside_cut dynamicFeeFields_items (fun _ _ _ => typed_decodes (.inr rfl)) spelled decoded alone

theorem transaction_inside_iff (decoded : decodeTransaction v = .ok tx) :
    TransactionInside v.bytes tx ↔ TransactionShape v.bytes := by
  constructor
  · intro inside
    rcases inside with deposit | ⟨lead,payload,rest,spelled,leads,object,alone,read⟩
    · exact Or.inl deposit
    have counted : (∃ count,FieldCount lead count) ∨ lead = [TransactionType.kOpDeposit.byte] := by
      rcases leads with rfl | ⟨type,rfl,low⟩
      · exact Or.inl ⟨9,.legacy⟩
      unfold decodeTransaction at read
      rw [alone,List.singleton_append] at read
      dsimp only at read
      rw [if_pos low] at read
      split at read
      · rename_i same
        exact Or.inl ⟨11,same ▸ .accessList⟩
      split at read
      · rename_i same
        exact Or.inl ⟨12,same ▸ .dynamicFee⟩
      · split at read
        · rename_i same
          exact Or.inr (same ▸ rfl)
        · cases read
    rcases counted with ⟨count,counted⟩ | rfl
    · exact Or.inr ⟨lead,payload,rest,count,spelled,counted,(counted.cut spelled decoded alone).mp read⟩
    · exact Or.inl ⟨_,spelled⟩
  · intro shape
    rcases shape with deposit | ⟨lead,payload,rest,count,spelled,counted,holds⟩
    · exact Or.inl deposit
    · obtain ⟨object,alone⟩ := object_alone spelled
      exact Or.inr ⟨lead,payload,rest,spelled,counted.typeLead,object,alone,(counted.cut spelled decoded alone).mpr holds⟩

end EvmRelay.Codec
