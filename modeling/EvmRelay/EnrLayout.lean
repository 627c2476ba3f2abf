import EvmRelay.Enr

namespace EvmRelay.Enr
open Rlp RlpSpec

inductive SpellsValue : List UInt8 → List UInt8 → Prop where
  | string : SpellsValue (encodeString val) val
  | list : SpellsValue (listHeader payload.length ++ payload) (listHeader payload.length ++ payload)

def PairAt (stream : List UInt8) (pair : Pair) (rest : List UInt8) : Prop :=
  ∃ spelled, SpellsValue spelled pair.2.items ∧ stream = encodeString pair.1 ++ (spelled ++ rest)

inductive Reads : List UInt8 → List Pair → List UInt8 → Prop where
  | stop (unreadable : ∀ pair rest, ¬ PairAt stream pair rest) : Reads stream [] stream
  | step (first : PairAt stream pair rest) (later : Reads rest pairs left) : Reads stream (pair :: pairs) left

theorem readEnrValue_string (spelled : v.bytes = encodeString bytes ++ rest.bytes) :
    ∃ fits, readEnrValue v = some (⟨bytes,fits⟩,rest) := by
  obtain ⟨offset,peeked,_⟩ := string_layout spelled
  have read := readBytes_complete spelled
  refine ⟨readBytes_fits read,?_⟩
  unfold readEnrValue
  rw [peeked]
  dsimp only
  rw [if_neg Bool.false_ne_true]
  split
  · rename_i failed
    rw [read] at failed
    cases failed
  · rename_i found view again
    rw [read] at again
    cases again
    rfl

theorem readEnrValue_list (spelled : v.bytes = listHeader payload.length ++ payload ++ rest.bytes) :
    ∃ fits, readEnrValue v = some (⟨listHeader payload.length ++ payload,fits⟩,rest) := by
  have split := spelled
  rw [List.append_assoc] at split
  have peeked := (peekHeader_list ..).mpr ⟨_,split,rfl,by simp⟩
  have announced := (peekHeader_exact v _).mp peeked
  have room : (listHeader payload.length).length + payload.length ≤ v.length := announced.room
  have fits := v.length_lt
  have total : sizeAdd (listHeader payload.length).length payload.length =
      (listHeader payload.length ++ payload).length := by
    rw [List.length_append,sizeAdd_small (by omega)]
  have left : v.removePrefix ((listHeader payload.length).length + payload.length) = rest := by
    rw [← List.length_append]
    exact ByteView.removePrefix_eq spelled
  refine ⟨by rw [List.length_append]; omega,?_⟩
  unfold readEnrValue
  rw [peeked]
  dsimp only
  rw [if_pos rfl,total,if_neg (by rw [List.length_append]; omega),skipItem_announced announced]
  rw [left]
  refine congrArg some (Prod.ext (StdVector.ext_items ?_) rfl)
  show (v.bytes.drop 0).take _ = _
  rw [List.drop_zero,spelled,List.take_left]

theorem readEnrValue_exact (val : StdVector UInt8) :
    readEnrValue v = some (val,rest) ↔ ∃ spelled, SpellsValue spelled val.items ∧ v.bytes = spelled ++ rest.bytes := by
  refine ⟨?_,?_⟩
  · intro read
    cases peeked : peekHeader v with
    | error error => simp [readEnrValue,peeked] at read
    | ok header =>
      obtain ⟨list,size,offset⟩ := header
      cases list with
      | false =>
        obtain ⟨payload,left,spelled⟩ := peeked_string peeked rfl
        obtain ⟨_,found⟩ := readEnrValue_string spelled
        rw [found] at read
        cases read
        exact ⟨_,.string,spelled⟩
      | true =>
        obtain ⟨tail,spelled,rfl,room⟩ := (peekHeader_list ..).mp peeked
        have width : (tail.take size).length = size := by rw [List.length_take]; omega
        have whole : v.bytes = listHeader (tail.take size).length ++ tail.take size ++
            (v.removePrefix ((listHeader size).length + size)).bytes := by
          rw [ByteView.removePrefix_bytes,width,← List.drop_drop,spelled,List.drop_left,List.append_assoc,
            List.take_append_drop]
        obtain ⟨_,found⟩ := readEnrValue_list whole
        rw [found] at read
        cases read
        exact ⟨_,.list,whole⟩
  · rintro ⟨spelled,value,bytes⟩
    generalize items : val.items = content at value
    cases value with
    | string =>
      obtain ⟨_,found⟩ := readEnrValue_string bytes
      rw [found]
      exact congrArg some (Prod.ext (StdVector.ext_items items.symm) rfl)
    | list =>
      obtain ⟨_,found⟩ := readEnrValue_list bytes
      rw [found]
      exact congrArg some (Prod.ext (StdVector.ext_items items.symm) rfl)

theorem readPair_exact (pair : Pair) : readPair v = some (pair,rest) ↔ PairAt v.bytes pair rest.bytes := by
  obtain ⟨key,val⟩ := pair
  unfold readPair
  refine ⟨?_,?_⟩
  · intro read
    split at read
    · cases read
    rename_i key' view found
    split at read
    · cases read
    rename_i val' rest' value
    cases read
    obtain ⟨spelled,shape,bytes⟩ := (readEnrValue_exact ..).mp value
    refine ⟨spelled,shape,?_⟩
    rw [← bytes]
    exact readBytes_sound found
  · rintro ⟨spelled,shape,bytes⟩
    obtain ⟨view,bytes,behind⟩ := v.cut bytes
    rw [readBytes_complete bytes]
    dsimp only
    rw [(readEnrValue_exact ..).mpr ⟨spelled,shape,behind⟩]

def readPairs : Nat → ByteView → List Pair
  | 0,_ => []
  | fuel+1,v =>
    match readPair v with
    | none => []
    | some (pair,rest) => pair :: readPairs fuel rest

theorem PairAt.shorter (at_ : PairAt stream pair rest) : rest.length < stream.length := by
  obtain ⟨spelled,_,bytes⟩ := at_
  have positive := encodeString_pos pair.1
  rw [bytes,List.length_append,List.length_append]
  omega

theorem readPair_shorter (read : readPair v = some (pair,rest)) : rest.length < v.length :=
  ((readPair_exact ..).mp read).shorter

theorem readPair_finished (finished : isFinished v = true) : readPair v = none := by
  cases read : readPair v with
  | none => rfl
  | some result =>
    have shorter := readPair_shorter read
    rw [ByteView.length,ByteView.length,(isFinished_iff v).mp finished] at shorter
    exact absurd shorter (Nat.not_lt_zero _)

theorem readFields_eq (fuel : Nat) (v : ByteView) (record : EnrRecord) :
    readFields text fuel v record = (readPairs fuel v).foldl (applyPair text) record := by
  induction fuel generalizing v record with
  | zero => rfl
  | succ fuel ih =>
    rw [readFields,readPairs]
    split_ifs with finished
    · rw [readPair_finished finished]
      rfl
    · cases readPair v with
      | none => rfl
      | some result => exact ih result.2 _

theorem PairAt.readPair (at_ : PairAt v.bytes pair rest) : ∃ view, readPair v = some (pair,view) ∧ view.bytes = rest := by
  obtain ⟨spelled,shape,bytes⟩ := at_
  obtain ⟨inner,behind⟩ := ByteView.exists_behind bytes
  obtain ⟨view,left⟩ := ByteView.exists_behind behind
  refine ⟨view,(readPair_exact ..).mpr ⟨spelled,shape,?_⟩,left⟩
  rw [left]
  exact bytes

theorem readPairs_reads (v : ByteView) (enough : v.length ≤ fuel) : ∃ left, Reads v.bytes (readPairs fuel v) left := by
  induction fuel generalizing v with
  | zero =>
    refine ⟨_,.stop ?_⟩
    intro pair rest at_
    obtain ⟨view,read,_⟩ := at_.readPair
    have shorter := readPair_shorter read
    omega
  | succ fuel ih =>
    rw [readPairs]
    cases read : readPair v with
    | none =>
      refine ⟨_,.stop ?_⟩
      intro pair rest at_
      obtain ⟨view,found,_⟩ := at_.readPair
      rw [read] at found
      cases found
    | some result =>
      obtain ⟨pair,view⟩ := result
      have shorter := readPair_shorter read
      obtain ⟨left,later⟩ := ih view (by omega)
      exact ⟨left,.step ((readPair_exact ..).mp read) later⟩

theorem PairAt.unique (first : PairAt stream pair rest) (second : PairAt stream pair' rest')
    (fits : stream.length < sizeLimit) : pair = pair' ∧ rest = rest' := by
  obtain ⟨view,read,behind⟩ := PairAt.readPair (v := ⟨stream,fits⟩) first
  obtain ⟨view',read',behind'⟩ := PairAt.readPair (v := ⟨stream,fits⟩) second
  rw [read] at read'
  cases read'
  exact ⟨rfl,behind.symm.trans behind'⟩

theorem Reads.unique (first : Reads stream pairs left) (second : Reads stream pairs' left')
    (fits : stream.length < sizeLimit) : pairs = pairs' ∧ left = left' := by
  induction first generalizing pairs' with
  | stop unreadable =>
    cases second with
    | stop _ => exact ⟨rfl,rfl⟩
    | step at_ _ => exact absurd at_ (unreadable _ _)
  | step at_ later ih =>
    cases second with
    | stop unreadable => exact absurd at_ (unreadable _ _)
    | step at_' later' =>
      obtain ⟨rfl,rfl⟩ := at_.unique at_' fits
      have shorter := at_.shorter
      obtain ⟨rfl,rfl⟩ := ih later' (by omega)
      exact ⟨rfl,rfl⟩

theorem signature_spelled (size : sig.length = 64) : encodeString sig = 0xB8 :: 0x40 :: sig := by
  rw [encodeString_headed (by omega),size]
  rfl

theorem readSignature_exact (raw : ByteView) (o : Opening) : readSignature raw = .ok o ↔
      raw.bytes = listHeader o.listPayloadLen ++ o.afterListHeader.bytes ∧ o.listPayloadLen ≤ o.afterListHeader.length ∧
      o.afterListHeader.bytes = encodeString o.sigBytes.toList ++ o.afterSig.bytes := by
  refine ⟨?_,?_⟩
  · intro read
    unfold readSignature at read
    split at read
    · split at read
      · cases read
      · rename_i size view headed
        split at read
        · cases read
        rename_i sig rest found
        split at read
        · cases read
          obtain ⟨spelled,room⟩ := (readListHeaderBytes_exact ..).mp headed
          exact ⟨spelled,room,readBytes_sound found⟩
        · cases read
    · cases read
  · rintro ⟨header,room,signature⟩
    have peeked := (peekHeader_list ..).mpr ⟨_,header,rfl,room⟩
    have kind := isList_announced ((peekHeader_exact raw _).mp peeked)
    have headed := (readListHeaderBytes_exact ..).mpr ⟨header,room⟩
    unfold readSignature
    rw [kind]
    rw [headed]
    dsimp only
    rw [readBytes_complete signature]
    dsimp only
    rw [dif_pos o.sigBytes.toList_length]
    rfl

theorem Opening.sigConsumed_eq (read : readSignature raw = .ok o) :
    o.sigConsumed = 66 ∧ o.afterListHeader.length = 66 + o.afterSig.length := by
  obtain ⟨_,_,spelled⟩ := (readSignature_exact raw o).mp read
  have total : o.afterListHeader.length = 66 + o.afterSig.length := by
    have size := o.sigBytes.toList_length
    rw [ByteView.length,spelled,List.length_append,signature_spelled size,List.length_cons,List.length_cons,size]
    rfl
  have fits := o.afterListHeader.length_lt
  refine ⟨?_,total⟩
  rw [Opening.sigConsumed,total,sizeSub_small (by omega) (by omega)]
  omega

theorem Opening.content_inside_iff (read : readSignature raw = .ok o) :
    o.contentElementsLen ≤ o.afterSig.length ↔ 66 ≤ o.listPayloadLen := by
  obtain ⟨consumed,total⟩ := Opening.sigConsumed_eq read
  obtain ⟨_,room,_⟩ := (readSignature_exact raw o).mp read
  have fits := o.afterListHeader.length_lt
  unfold Opening.contentElementsLen
  rw [consumed]
  by_cases long : 66 ≤ o.listPayloadLen
  · rw [sizeSub_small long (by omega)]
    omega
  · rw [sizeSub_wraps (by omega) (by decide)]
    omega

-- Everything decode_rlp touches lies in raw: the subtraction for the content
-- does not wrap, the slice is inside, and no read leaves the record.
def ReadsInside (text : AddressText) (raw : ByteView) : Prop :=
  (∀ o, readSignature raw = .ok o → o.sigConsumed ≤ o.listPayloadLen ∧ o.contentElementsLen ≤ o.afterSig.length) ∧
    decodeRlp text raw ≠ .error .outOfBounds

theorem contentBytes_inside (inside : o.contentElementsLen ≤ o.afterSig.length) : contentBytes o ≠ .error .outOfBounds := by
  unfold contentBytes
  rw [if_neg (by omega)]
  split
  · intro failed; cases failed
  · intro failed; cases failed

theorem decodeRlp_inside (text : AddressText)
    (inside : ∀ o, readSignature raw = .ok o → o.contentElementsLen ≤ o.afterSig.length) :
    decodeRlp text raw ≠ .error .outOfBounds := by
  unfold decodeRlp
  dsimp only
  split
  · intro failed; cases failed
  rename_i o read
  have cut := contentBytes_inside (inside o read)
  cases content : contentBytes o with
  | error failure =>
    rw [content] at cut
    intro failed
    cases failed
    exact cut rfl
  | ok bytes =>
    rw [ok_bind]
    split
    · intro failed; cases failed
    · split
      · intro failed; cases failed
      · intro failed; cases failed

theorem readSignature_spelled (size : Nat) (sig : FixedBytes 64)
    (room : size ≤ 66 + behind.length) (spelled : raw.bytes = listHeader size ++ (encodeString sig.toList ++ behind)) :
    ∃ view rest, readSignature raw = .ok ⟨size,view,sig,rest⟩ ∧ rest.bytes = behind := by
  obtain ⟨view,spelled,header⟩ := raw.cut spelled
  obtain ⟨rest,front,signature⟩ := view.cut header
  have width := sig.toList_length
  have inside : size ≤ view.length := by
    rw [ByteView.length,header,List.length_append,signature_spelled width,List.length_cons,List.length_cons,width]
    exact room
  exact ⟨view,rest,(readSignature_exact raw _).mpr ⟨spelled,inside,front⟩,signature⟩

theorem short_list_leaves (text : AddressText) (raw : ByteView) (size : Nat) (sig tail : List UInt8)
    (small : size < 66) (width : sig.length = 64) (spelled : raw.bytes = listHeader size ++ (0xB8 :: 0x40 :: sig) ++ tail) :
    decodeRlp text raw = .error .outOfBounds := by
  rw [← signature_spelled width,List.append_assoc] at spelled
  obtain ⟨view,rest,read,_⟩ := readSignature_spelled size ⟨sig,width⟩ (by omega) spelled
  have outside := mt (Opening.content_inside_iff read).mp (Nat.not_le.mpr small)
  unfold decodeRlp
  rw [read]
  dsimp only
  rw [contentBytes,if_pos (Nat.not_le.mp outside)]
  rfl

theorem decode_reads_inside_iff (text : AddressText) (raw : ByteView) : ReadsInside text raw ↔
      ¬ ∃ (size : Nat) (sig tail : List UInt8), size < 66 ∧ sig.length = 64 ∧
        raw.bytes = listHeader size ++ (0xB8 :: 0x40 :: sig) ++ tail := by
  refine ⟨?_,?_⟩
  · rintro inside ⟨size,sig,tail,small,width,spelled⟩
    exact inside.2 (short_list_leaves text raw size sig tail small width spelled)
  · intro long
    have enough : ∀ o, readSignature raw = .ok o → 66 ≤ o.listPayloadLen := by
      intro o read
      obtain ⟨header,_,signature⟩ := (readSignature_exact raw o).mp read
      by_contra short
      refine long ⟨o.listPayloadLen,o.sigBytes.toList,o.afterSig.bytes,by omega,o.sigBytes.toList_length,?_⟩
      rw [header,signature,signature_spelled o.sigBytes.toList_length,List.append_assoc]
    have inside : ∀ o, readSignature raw = .ok o → o.contentElementsLen ≤ o.afterSig.length :=
      fun o read => (Opening.content_inside_iff read).mpr (enough o read)
    refine ⟨?_,decodeRlp_inside text inside⟩
    intro o read
    rw [(Opening.sigConsumed_eq read).1]
    exact ⟨enough o read,inside o read⟩

-- An empty list and a signature behind it: the subtraction gives 2^64 - 66.
theorem decode_leaves_record :
    decodeRlp ⟨fun _ => "",fun _ => ""⟩ ⟨[0xC0,0xB8,0x40] ++ List.replicate 64 0x01,by decide⟩ = .error .outOfBounds ∧
      ¬ ReadsInside ⟨fun _ => "",fun _ => ""⟩ ⟨[0xC0,0xB8,0x40] ++ List.replicate 64 0x01,by decide⟩ := by
  have failed := short_list_leaves ⟨fun _ => "",fun _ => ""⟩
    ⟨[0xC0,0xB8,0x40] ++ List.replicate 64 0x01,by decide⟩ 0 (List.replicate 64 0x01) [] (by decide) (by decide)
    (by decide)
  exact ⟨failed,fun inside => inside.2 failed⟩

end EvmRelay.Enr
