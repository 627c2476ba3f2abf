import EvmRelay.EnrAuthenticity

namespace EvmRelay.Enr
open Rlp RlpSpec

-- The bookkeeping entries are erased before a record is returned.
def Reserved (slot : Slot) : Prop := slot = .extra sigKey ∨ slot = .extra contentKey

def SameFields (left right : EnrRecord) : Prop :=
  left.seq = right.seq ∧ ∀ slot, ¬ Reserved slot → left.slots slot = right.slots slot

def contentRecord (text : AddressText) (elements : ByteView) : Option EnrRecord :=
  match readIntegral .uint64 elements with
  | .error _ => none
  | .ok (seq,view) => some (readFields text view.length view { EnrRecord.new with seq := seq })

def FromContent (text : AddressText) (layout : Layout raw) (verified : EnrRecord) : Prop :=
  ∃ signed, contentRecord text layout.elements = some signed ∧ SameFields verified signed

-- The sequence number ends inside the list. Behind the list's own pairs the
-- loop goes on with what is left of the list and the bytes after it; for every
-- field, the last of those pairs that sets it repeats the signed value.
def Layout.RepeatsSigned (text : AddressText) (layout : Layout raw) : Prop :=
  ∃ inner own ownLeft overrun left, layout.elements.bytes = layout.seqBytes ++ inner ∧ Reads inner own ownLeft ∧
    Reads (ownLeft ++ layout.tail) overrun left ∧
    ∀ slot value, ¬ Reserved slot → LastWrite.last (entries text overrun) slot = some value →
      value = LastWrite.run EnrRecord.new.slots (entries text own) slot

theorem PairAt.extend (at_ : PairAt stream pair rest) (tail : List UInt8) : PairAt (stream ++ tail) pair (rest ++ tail) := by
  obtain ⟨spelled,shape,bytes⟩ := at_
  refine ⟨spelled,shape,?_⟩
  rw [bytes,List.append_assoc,List.append_assoc]

theorem Reads.extend (own : Reads listed pairs ownLeft) (overrun : Reads (ownLeft ++ tail) more left) :
    Reads (listed ++ tail) (pairs ++ more) left := by
  induction own with
  | stop _ => exact overrun
  | step first _ ih => exact .step (first.extend tail) (ih overrun)

theorem Reads.left_shorter (reads : Reads stream pairs left) : left.length ≤ stream.length := by
  induction reads with
  | stop _ => exact Nat.le_refl _
  | step first _ ih => exact Nat.le_trans ih (Nat.le_of_lt first.shorter)

theorem reads_exist (stream : List UInt8) (fits : stream.length < sizeLimit) : ∃ pairs left, Reads stream pairs left := by
  obtain ⟨left,reads⟩ := readPairs_reads ⟨stream,fits⟩ (Nat.le_refl _)
  exact ⟨_,left,reads⟩

theorem readFields_reads (text : AddressText) (view : ByteView) (reads : Reads view.bytes pairs left) :
    readFields text view.length view record = pairs.foldl (applyPair text) record := by
  obtain ⟨_,found⟩ := readPairs_reads view (Nat.le_refl _)
  rw [readFields_eq,(found.unique reads view.fits).1]

namespace Layout

theorem content_inside (layout : Layout raw) (found : contentRecord text layout.elements = some signed) :
    ∃ inner, layout.elements.bytes = layout.seqBytes ++ inner := by
  unfold contentRecord at found
  split at found
  · cases found
  rename_i seq view read
  obtain ⟨seqBytes,number,bytes⟩ := (readSeq_exact ..).mp read
  obtain ⟨_,rest,_,whole⟩ := layout.opens
  have longer := whole
  rw [bytes,List.append_assoc] at longer
  obtain ⟨longRest,behind⟩ := ByteView.exists_behind longer
  have first := (readSeq_exact rest seq longRest).mpr ⟨seqBytes,number,by rw [longer,behind]⟩
  have second := (readSeq_exact rest layout.seq layout.stream).mpr ⟨_,layout.number,whole.trans layout.behind⟩
  rw [first] at second
  cases second
  have same := layout.behind
  rw [bytes,List.append_assoc,behind] at same
  exact ⟨view.bytes,by rw [bytes,List.append_cancel_right same]⟩

theorem signed_split (layout : Layout raw) (text : AddressText)
    (inside : layout.elements.bytes = layout.seqBytes ++ listed) (own : Reads listed ownPairs ownLeft)
    (overrun : Reads (ownLeft ++ layout.tail) overrunPairs rest) : layout.pairs = ownPairs ++ overrunPairs ∧
      ∃ signed, contentRecord text layout.elements = some signed ∧ signed.seq = layout.seq ∧
        signed.slots = LastWrite.run EnrRecord.new.slots (entries text ownPairs) := by
  obtain ⟨view,behind⟩ := ByteView.exists_behind inside
  have stream : layout.stream.bytes = listed ++ layout.tail := by
    have same := layout.behind
    rw [inside,List.append_assoc] at same
    exact (List.append_cancel_left same).symm
  have all := own.extend overrun
  rw [← stream] at all
  have read := (readSeq_exact layout.elements layout.seq view).mpr ⟨_,layout.number,by rw [inside,behind]⟩
  rw [← behind] at own
  refine ⟨(layout.reads.unique all layout.stream.fits).1,
    ownPairs.foldl (applyPair text) { EnrRecord.new with seq := layout.seq },?_,?_,?_⟩
  · unfold contentRecord
    rw [read]
    dsimp only
    rw [readFields_reads text view own]
  · exact fields_seq text ownPairs _
  · exact fields_slots text ownPairs _

theorem free_key (free : ¬ Reserved (.extra key)) : key ≠ contentKey ∧ key ≠ sigKey :=
  ⟨fun same => free (.inr (by rw [same])),fun same => free (.inl (by rw [same]))⟩

theorem start_slots (layout : Layout raw) (free : ¬ Reserved slot) : layout.start.slots slot = EnrRecord.new.slots slot := by
  cases slot with
  | extra key =>
    obtain ⟨notContent,notSig⟩ := free_key free
    show layout.start.extraFields key = none
    unfold start
    rw [setExtra_other _ notContent,setExtra_other _ notSig]
    rfl
  | _ => rfl

end Layout

theorem verified_fields (accepted : verifySignature crypto record = .ok verified) : SameFields verified record := by
  obtain ⟨_,_,_,_,_,_,nodeId,same⟩ := verifySignature_sound accepted
  subst same
  refine ⟨rfl,?_⟩
  intro slot free
  cases slot with
  | extra key =>
    obtain ⟨notContent,notSig⟩ := Layout.free_key free
    exact (Function.update_of_ne notContent ..).trans (Function.update_of_ne notSig ..)
  | _ => rfl

section Accepted
variable {record : EnrRecord}

theorem Layout.returned_slots (layout : Layout raw) (decoded : decodeRlp text raw = .ok record)
    (accepted : verifySignature crypto record = .ok verified) (split : layout.pairs = own ++ overrun)
    (free : ¬ Reserved slot) : verified.slots slot =
      LastWrite.run (LastWrite.run EnrRecord.new.slots (entries text own)) (entries text overrun) slot := by
  have joined : entries text layout.pairs = entries text own ++ entries text overrun := by
    rw [split,entries,List.filterMap_append]
    rfl
  rw [(verified_fields accepted).2 slot free,layout.record_unique decoded,Layout.record,fields_slots,joined,
    LastWrite.run_append,LastWrite.run_apply,LastWrite.run_apply,LastWrite.run_apply,LastWrite.run_apply,
    layout.start_slots free]

theorem Layout.from_content_iff (layout : Layout raw) (decoded : decodeRlp text raw = .ok record)
    (accepted : verifySignature crypto record = .ok verified) :
    FromContent text layout verified ↔ layout.RepeatsSigned text := by
  have number : verified.seq = layout.seq := by
    rw [(verified_fields accepted).1,layout.record_unique decoded]
    exact fields_seq ..
  refine ⟨?_,?_⟩
  · rintro ⟨signed,found,_,same⟩
    obtain ⟨inner,inside⟩ := layout.content_inside found
    have fits := layout.stream.fits
    have stream := layout.behind
    rw [inside,List.append_assoc] at stream
    rw [← List.append_cancel_left stream,List.length_append] at fits
    obtain ⟨own,ownLeft,ownReads⟩ := reads_exist inner (by omega)
    have shorter := ownReads.left_shorter
    obtain ⟨overrun,rest,overrunReads⟩ := reads_exist (ownLeft ++ layout.tail) (by rw [List.length_append]; omega)
    obtain ⟨split,signed',found',_,slots⟩ := layout.signed_split text inside ownReads overrunReads
    rw [found] at found'
    cases found'
    refine ⟨inner,own,ownLeft,overrun,rest,inside,ownReads,overrunReads,?_⟩
    apply (LastWrite.run_agrees_iff (fun slot => ¬ Reserved slot) _).mp
    intro slot free
    rw [← layout.returned_slots decoded accepted split free,same slot free,slots]
  · rintro ⟨inner,own,ownLeft,overrun,rest,inside,ownReads,overrunReads,repeated⟩
    obtain ⟨split,signed,found,seq,slots⟩ := layout.signed_split text inside ownReads overrunReads
    refine ⟨signed,found,number.trans seq.symm,?_⟩
    intro slot free
    have kept := (LastWrite.run_agrees_iff (fun slot => ¬ Reserved slot) _).mpr repeated slot free
    rw [layout.returned_slots decoded accepted split free,kept,slots]

end Accepted

theorem Layout.elements_unique (layout : Layout raw) (other : Layout longer)
    (appended : longer.bytes = raw.bytes ++ extra) : other.elements = layout.elements := by
  have spelled : longer.bytes = listHeader (66 + layout.elements.length) ++
      (encodeString layout.sig.toList ++ (layout.elements.bytes ++ (layout.tail ++ extra))) := by
    rw [appended,layout.outer]
    simp only [List.append_assoc]
  obtain ⟨view,rest,read,behind⟩ := readSignature_spelled _ layout.sig
    (by rw [List.length_append]; exact Nat.add_le_add_left (Nat.le_add_right _ _) 66) spelled
  obtain ⟨view',rest',read',behind'⟩ := other.opens
  rw [read] at read'
  have same := Except.ok.inj read'
  have sizes : 66 + layout.elements.length = 66 + other.elements.length := congrArg Opening.listPayloadLen same
  have rests : rest = rest' := congrArg Opening.afterSig same
  rw [rests,behind'] at behind
  exact ByteView.ext_bytes (List.append_inj_left behind (Nat.add_left_cancel sizes).symm)

-- What an accepted record returns is what its signed content says, exactly when
-- the pairs past the list repeat it; then appended bytes change no field.
theorem fields_from_content_iff (crypto : Crypto) (text : AddressText) (raw : ByteView) (record verified : EnrRecord)
    (decoded : decodeRlp text raw = .ok record) (accepted : verifySignature crypto record = .ok verified) :
    Nonempty (Layout raw) ∧ (∀ layout : Layout raw, FromContent text layout verified ↔ layout.RepeatsSigned text) ∧
    ∀ (longer : ByteView) (extra : List UInt8) (record' verified' : EnrRecord), longer.bytes = raw.bytes ++ extra →
      decodeRlp text longer = .ok record' → verifySignature crypto record' = .ok verified' →
      (∀ layout : Layout raw, layout.RepeatsSigned text) → (∀ layout : Layout longer, layout.RepeatsSigned text) →
      SameFields verified verified' := by
  obtain ⟨layout⟩ := decodeRlp_layout decoded
  refine ⟨⟨layout⟩,fun layout => layout.from_content_iff decoded accepted,?_⟩
  intro longer extra record' verified' appended decoded' accepted' repeats repeats'
  obtain ⟨other⟩ := decodeRlp_layout decoded'
  obtain ⟨signed,found,seq,slots⟩ := (layout.from_content_iff decoded accepted).mpr (repeats layout)
  obtain ⟨signed',found',seq',slots'⟩ := (other.from_content_iff decoded' accepted').mpr (repeats' other)
  rw [layout.elements_unique other appended,found] at found'
  cases found'
  exact ⟨seq.trans seq'.symm,fun slot free => (slots slot free).trans (slots' slot free).symm⟩

theorem node_fields_from_content_iff :
    ∃ record verified, decodeRlp dottedText nodeRecord = .ok record ∧ verifySignature nodeCrypto record = .ok verified ∧
      Nonempty (Layout nodeRecord) ∧
      (∀ layout : Layout nodeRecord, FromContent dottedText layout verified ↔ layout.RepeatsSigned dottedText) := by
  obtain ⟨record,verified,decoded,accepted⟩ := accepted_runs node_accepted
  obtain ⟨laidOut,iff_,_⟩ :=
    fields_from_content_iff nodeCrypto dottedText nodeRecord record verified decoded accepted
  exact ⟨record,verified,decoded,accepted,laidOut,iff_⟩

def redirectedRecord : ByteView := ⟨nodeRecord.bytes ++ field "ip" [10,0,0,1],by decide +kernel⟩

theorem appended_pair_changes_address : ∃ record verified record' verified', decodeRlp dottedText nodeRecord = .ok record ∧
      verifySignature nodeCrypto record = .ok verified ∧ decodeRlp dottedText redirectedRecord = .ok record' ∧
      verifySignature nodeCrypto record' = .ok verified' ∧
      redirectedRecord.bytes = nodeRecord.bytes ++ field "ip" [10,0,0,1] ∧
      verified.ip = "127.0.0.1" ∧ verified'.ip = "10.0.0.1" ∧ ¬ SameFields verified verified' := by
  have first : (decodeRlp dottedText nodeRecord >>= verifySignature nodeCrypto).toOption.map EnrRecord.ip =
      some "127.0.0.1" := by decide +kernel
  have second : (decodeRlp dottedText redirectedRecord >>= verifySignature nodeCrypto).toOption.map EnrRecord.ip =
      some "10.0.0.1" := by decide +kernel
  obtain ⟨record,verified,decoded,accepted⟩ := accepted_runs node_accepted
  have ran : (decodeRlp dottedText redirectedRecord >>= verifySignature nodeCrypto).isOk = true := by decide +kernel
  obtain ⟨record',verified',decoded',accepted'⟩ := accepted_runs ran
  rw [decoded,ok_bind,accepted] at first
  rw [decoded',ok_bind,accepted'] at second
  have here := Option.some.inj first
  have there := Option.some.inj second
  refine ⟨record,verified,record',verified',decoded,accepted,decoded',accepted',rfl,here,there,?_⟩
  intro same
  have ip : verified.ip = verified'.ip := same.2 .ip (by intro reserved; rcases reserved with named | named <;> cases named)
  rw [here,there] at ip
  exact absurd ip (by decide)

end EvmRelay.Enr
