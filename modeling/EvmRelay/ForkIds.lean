import EvmRelay.Discv4Packets
import EvmRelay.EnrAuthenticity
import EvmRelay.ObjectLists

namespace EvmRelay.Discv4
open Rlp RlpSpec Enr Codec

def kEthKey : List UInt8 := [0x65,0x74,0x68]

def readForkId : Decoder ForkId := do
  let _ ← expectList
  let _ ← expectList
  let hash ← readFixed 4
  let next ← readUint64
  return ⟨hash,next⟩

-- while (!record_dec.IsFinished()); a round that goes on takes a key.
def findEthForkId : Nat → ByteView → Except DecodingError ForkId
  | 0,_ => .error .kUnexpectedString
  | fuel+1,v =>
    if isFinished v then .error .kUnexpectedString
    else do
      let (keyBytes,v) ← readBytes v
      if keyBytes = kEthKey then (readForkId v).map Prod.fst
      else
        let v ← skipItem v
        findEthForkId fuel v

def parseEthForkId (recordRlp : ByteView) : Except DecodingError ForkId := do
  if recordRlp.bytes = [] then .error .kInputTooShort
  else
    let (_,v) ← expectList recordRlp
    let v ← skipItem v
    let v ← skipItem v
    findEthForkId v.length v

-- A fork id that both parsers read: two list headers whose sizes only have to
-- fit, a hash and a number.
def ForkIdAt (bytes : List UInt8) (forkId : ForkId) (left : List UInt8) : Prop :=
  ∃ outer inner number entry,entry = encodeString forkId.hash.toList ++ (number ++ left) ∧ UnsignedForm number forkId.next ∧
    bytes = listHeader outer ++ (listHeader inner ++ entry) ∧ outer ≤ (listHeader inner ++ entry).length ∧ inner ≤ entry.length

theorem readForkId_iff : readForkId v = .ok (forkId,rest) ↔ ForkIdAt v.bytes forkId rest.bytes := by
  simp only [readForkId,Reader.bind_ok_iff,expectList_exact]
  constructor
  · rintro ⟨outer,one,⟨spelled,room⟩,inner,two,⟨behind,space⟩,hash,three,first,next,four,second,ran⟩
    cases ran
    obtain ⟨_,content,rfl⟩ := (readFixed_exact 4 _ _ _).mp first
    obtain ⟨number,digits,formed⟩ := (readUint64_exact _ _ _).mp second
    refine ⟨outer,inner,number,two.bytes,content.trans (congrArg _ digits),formed,?_,?_,space⟩
    · rw [spelled,behind]
    · rw [← behind]
      exact room
  · rintro ⟨outer,inner,number,entry,content,formed,spelled,room,space⟩
    obtain ⟨one,spelled,within⟩ := v.cut spelled
    obtain ⟨two,first,second⟩ := one.cut within
    obtain ⟨three,content,third⟩ := two.cut (second.trans content)
    rw [← second] at space
    rw [← within] at room
    have next := (readUint64_exact _ _ _).mpr ⟨number,third,formed⟩
    exact ⟨outer,one,⟨spelled,room⟩,inner,two,⟨first,space⟩,_,three,readFixed_reads _ two three content,_,rest,next,rfl⟩

theorem readForkId_ok : (∃ rest,readForkId v = .ok (forkId,rest)) ↔ ∃ left,ForkIdAt v.bytes forkId left := by
  constructor
  · intro ⟨rest,ran⟩
    exact ⟨rest.bytes,readForkId_iff.mp ran⟩
  · intro ⟨left,found⟩
    have parts := found
    obtain ⟨outer,inner,number,entry,rfl,_,spelled,_⟩ := parts
    simp only [← List.append_assoc] at spelled
    obtain ⟨rest,rfl⟩ := ByteView.exists_behind spelled
    exact ⟨rest,readForkId_iff.mpr found⟩

theorem openList_iff : openList v = .ok view ↔ ∃ size,expectList v = .ok (size,view) := by
  unfold openList expectList
  cases isList v with
  | error error => exact ⟨(by intro wrong; cases wrong),by rintro ⟨_,wrong⟩; cases wrong⟩
  | ok list =>
    cases list with
    | false => simp
    | true =>
      rw [ok_bind,if_neg (by simp)]
      cases readListHeaderBytes v with
      | error error => simp
      | ok result => simp [Prod.ext_iff]

-- The entry decoder reads as ParseEthForkId does, from a view of its own.
theorem decodeEthEntry_iff : decodeEthEntry val = .ok forkId ↔ ∃ left,ForkIdAt val.items forkId left := by
  refine Iff.trans ?_ (readForkId_ok (v := .ofVector val))
  simp only [readForkId,Reader.bind_ok_iff]
  unfold decodeEthEntry
  split_ifs with empty
  · rw [show ByteView.ofVector val = .empty from ByteView.ext_bytes empty]
    refine iff_of_false nofun ?_
    rintro ⟨_,_,_,opened,_⟩
    cases opened
  simp only [bind_ok,openList_iff]
  constructor
  · rintro ⟨one,⟨outer,opened⟩,two,⟨inner,entered⟩,ran⟩
    split at ran
    · cases ran
    rename_i hashBytes three first
    split_ifs at ran with size
    split at ran
    · cases ran
    rename_i next rest second
    cases ran
    have hash := (readFixed_exact 4 two ⟨hashBytes,size⟩ three).mpr ⟨_,readBytes_sound first,rfl⟩
    exact ⟨rest,outer,one,opened,inner,two,entered,_,three,hash,next,rest,second,rfl⟩
  · rintro ⟨rest,outer,one,opened,inner,two,entered,hash,three,first,next,four,second,ran⟩
    cases ran
    obtain ⟨_,content,rfl⟩ := (readFixed_exact 4 _ _ _).mp first
    refine ⟨one,⟨outer,opened⟩,two,⟨inner,entered⟩,?_⟩
    rw [readBytes_complete content]
    dsimp only
    rw [dif_pos hash.toList_length,show readIntegral .uint64 three = .ok (next,rest) from second]
    rfl

-- The view behind the first key `eth`, found as both parsers find it.
def ethValue : Nat → ByteView → Option ByteView
  | 0,_ => none
  | fuel+1,v =>
    match readBytes v with
    | .error _ => none
    | .ok (key,view) =>
      if key = kEthKey then some view
      else
        match skipItem view with
        | .error _ => none
        | .ok rest => ethValue fuel rest

theorem findEthForkId_eq (v : ByteView) :
    (findEthForkId fuel v).toOption = (ethValue fuel v).bind fun view => ((readForkId view).map Prod.fst).toOption := by
  induction fuel generalizing v with
  | zero => rfl
  | succ fuel ih =>
    rw [findEthForkId,ethValue]
    by_cases finished : isFinished v = true
    · cases (ByteView.ext_bytes ((isFinished_iff v).mp finished) : v = .empty)
      rfl
    rw [if_neg finished]
    cases readBytes v with
    | error error => rfl
    | ok result =>
      obtain ⟨key,view⟩ := result
      rw [ok_bind]
      dsimp only
      split_ifs with eth
      · rfl
      · cases skipItem view with
        | error error => rfl
        | ok rest => exact ih rest

theorem readEnrValue_skips (v : ByteView) : (readEnrValue v).map Prod.snd = (skipItem v).toOption := by
  cases read : readEnrValue v with
  | none =>
    cases skipped : skipItem v with
    | error error => rfl
    | ok rest =>
      obtain ⟨piece,spelled,item⟩ := (skipOne_exact v () rest).mp (bind_ok.mpr ⟨rest,skipped,rfl⟩)
      cases item with
      | string payload =>
        obtain ⟨_,found⟩ := readEnrValue_string spelled
        cases read.symm.trans found
      | list payload =>
        obtain ⟨_,found⟩ := readEnrValue_list spelled
        cases read.symm.trans found
  | some result =>
    obtain ⟨val,rest⟩ := result
    obtain ⟨spelled,shape,bytes⟩ := (readEnrValue_exact ..).mp read
    have item : IsItem spelled := by
      generalize val.items = items at shape
      cases shape with
      | string => exact .string _
      | list => exact .list _
    rw [skipItem_item item bytes]
    rfl

theorem slotOf_eth (other : key ≠ kEthKey) : slotOf key ≠ .ethForkId := by
  unfold slotOf
  split_ifs with h1 h2 h3 h4 h5 h6 h7 h8 eth
  all_goals first | exact absurd eth other | simp

theorem applyPair_other (text : AddressText) (record : EnrRecord) (other : pair.1 ≠ kEthKey) :
    (applyPair text record pair).ethForkId = record.ethForkId :=
  applyPair_elsewhere text record (slotOf_eth other)

theorem applyPairs_other (text : AddressText) {pairs : List Pair} (record : EnrRecord) (absent : kEthKey ∉ pairs.map Prod.fst) :
    (pairs.foldl (applyPair text) record).ethForkId = record.ethForkId := by
  induction pairs generalizing record with
  | nil => rfl
  | cons pair pairs ih =>
    obtain ⟨first,later⟩ := not_or.mp (mt List.mem_cons.mpr absent)
    rw [List.foldl_cons,ih _ later,applyPair_other text record (Ne.symm first)]

theorem applyPair_eth (text : AddressText) (unset : record.ethForkId = none) :
    (applyPair text record (kEthKey,val)).ethForkId = (decodeEthEntry val).toOption := by
  rw [applyPair_eq,show entryOf text (kEthKey,val) = ((decodeEthEntry val).toOption.map some).map (Sigma.mk .ethForkId) from rfl]
  cases decodeEthEntry val with
  | error error => exact unset
  | ok forkId => rfl

theorem readPairs_step (read : readBytes v = .ok (key,view)) : readPairs (fuel + 1) v =
    match readEnrValue view with
    | none => []
    | some (val,rest) => (key,val) :: readPairs fuel rest := by
  rw [readPairs,readPair,read]
  dsimp only
  cases readEnrValue view with
  | none => rfl
  | some found => rfl

-- The key/value loop keeps what the one entry says. The induction follows the
-- loop, with the view behind the key found on the way.
theorem readPairs_eth (text : AddressText) (v : ByteView) (record : EnrRecord) (unset : record.ethForkId = none)
    (once : ((readPairs fuel v).map Prod.fst).count kEthKey ≤ 1) :
    ((readPairs fuel v).foldl (applyPair text) record).ethForkId = (ethValue fuel v).bind fun view =>
      (readEnrValue view).bind fun value => (decodeEthEntry value.1).toOption := by
  induction fuel generalizing v record with
  | zero => exact unset
  | succ fuel ih =>
    rw [ethValue]
    cases read : readBytes v with
    | error error =>
      rw [readPairs,readPair,read]
      exact unset
    | ok result =>
      obtain ⟨key,view⟩ := result
      have skips := readEnrValue_skips view
      rw [readPairs_step read] at once ⊢
      dsimp only
      cases value : readEnrValue view with
      | none =>
        rw [value] at skips
        show record.ethForkId = _
        rw [unset]
        split_ifs with eth
        · rw [Option.bind_some,value]
          rfl
        · cases skipped : skipItem view with
          | error error => rfl
          | ok rest => rw [skipped] at skips; cases skips
      | some found =>
        obtain ⟨val,rest⟩ := found
        rw [value] at once skips
        rw [List.foldl_cons]
        split_ifs with eth
        · rw [List.map_cons,eth,List.count_cons_self] at once
          have absent := List.count_eq_zero.mp (Nat.le_zero.mp (Nat.le_of_succ_le_succ once))
          rw [applyPairs_other text _ absent,eth,applyPair_eth text unset,Option.bind_some,value,Option.bind_some]
        have skipped : skipItem view = .ok rest := by
          cases skipped : skipItem view with
          | error error => rw [skipped] at skips; cases skips
          | ok left => rw [skipped] at skips; cases skips; rfl
        rw [List.map_cons,List.count_cons_of_ne eth] at once
        rw [skipped]
        exact ih rest _ ((applyPair_other text record eth).trans unset) once

-- What the two parsers read of the value behind the key. A string is opened by
-- one of them only, and a list is left by the other if it does not hold the entry.
def EthAgrees (behind : List UInt8) : Prop :=
  (∀ val rest,behind = encodeString val ++ rest → ∀ forkId left,¬ ForkIdAt val forkId left) ∧
  ∀ payload rest,behind = encodeList payload ++ rest →
    (∃ forkId left,ForkIdAt (encodeList payload) forkId left) ∨ ∀ forkId left,¬ ForkIdAt behind forkId left

theorem ForkIdAt.extend (found : ForkIdAt bytes forkId left) (more : List UInt8) : ForkIdAt (bytes ++ more) forkId (left ++ more) := by
  obtain ⟨outer,inner,number,entry,content,formed,spelled,room,space⟩ := found
  refine ⟨outer,inner,number,entry ++ more,?_,formed,?_,?_,?_⟩
  · rw [content]
    simp
  · rw [spelled]
    simp
  · rw [← List.append_assoc,List.length_append]
    exact Nat.le_add_right_of_le room
  · rw [List.length_append]
    exact Nat.le_add_right_of_le space

theorem ForkIdAt.list (found : ForkIdAt bytes forkId left) : ∃ payload rest,bytes = encodeList payload ++ rest := by
  obtain ⟨outer,inner,number,entry,_,_,spelled,room,_⟩ := found
  refine ⟨(listHeader inner ++ entry).take outer,(listHeader inner ++ entry).drop outer,?_⟩
  rw [encodeList,List.length_take_of_le room,List.append_assoc,List.take_append_drop]
  exact spelled

theorem parsed_some : ((readForkId view).map Prod.fst).toOption = some forkId ↔ ∃ left,ForkIdAt view.bytes forkId left := by
  rw [← readForkId_ok,← returned_iff]
  cases (readForkId view).map Prod.fst with
  | error error => simp [Except.toOption]
  | ok found => simp [Except.toOption]

theorem decoded_some : (decodeEthEntry val).toOption = some forkId ↔ ∃ left,ForkIdAt val.items forkId left := by
  rw [← decodeEthEntry_iff]
  cases decodeEthEntry val with
  | error error => simp [Except.toOption]
  | ok found => simp [Except.toOption]

theorem value_string (spelled : view.bytes = encodeString val ++ rest) : ∃ found left,readEnrValue view = some (found,left) ∧ found.items = val := by
  obtain ⟨left,rfl⟩ := ByteView.exists_behind spelled
  obtain ⟨fits,read⟩ := readEnrValue_string spelled
  exact ⟨_,left,read,rfl⟩

theorem value_list (spelled : view.bytes = encodeList payload ++ rest) :
    ∃ found left,readEnrValue view = some (found,left) ∧ found.items = encodeList payload := by
  obtain ⟨left,rfl⟩ := ByteView.exists_behind spelled
  obtain ⟨fits,read⟩ := readEnrValue_list spelled
  exact ⟨_,left,read,rfl⟩

theorem eth_agrees_iff :
    ((readForkId view).map Prod.fst).toOption = ((readEnrValue view).bind fun value => (decodeEthEntry value.1).toOption) ↔
      EthAgrees view.bytes := by
  cases value : readEnrValue view with
  | none =>
    -- Nothing stands here that either of them could read.
    refine iff_of_true ?_ ⟨?_,?_⟩
    · refine Option.eq_none_iff_forall_ne_some.mpr fun forkId parsed => ?_
      obtain ⟨left,found⟩ := parsed_some.mp parsed
      obtain ⟨payload,rest,list⟩ := found.list
      obtain ⟨_,_,read,_⟩ := value_list list
      cases value.symm.trans read
    · intro val rest spelled
      obtain ⟨_,_,read,_⟩ := value_string spelled
      cases value.symm.trans read
    · intro payload rest spelled
      obtain ⟨_,_,read,_⟩ := value_list spelled
      cases value.symm.trans read
  | some found =>
    obtain ⟨val,rest⟩ := found
    obtain ⟨piece,shape,spelled⟩ := (readEnrValue_exact ..).mp value
    rw [Option.bind_some]
    generalize items : val.items = content at shape
    cases shape with
    | string =>
      have unread : ((readForkId view).map Prod.fst).toOption = none := by
        refine Option.eq_none_iff_forall_ne_some.mpr fun forkId parsed => ?_
        obtain ⟨left,found⟩ := parsed_some.mp parsed
        obtain ⟨payload,more,list⟩ := found.list
        exact string_not_list spelled list
      rw [unread,eq_comm,Option.eq_none_iff_forall_ne_some]
      constructor
      · intro unread
        refine ⟨?_,fun payload more list => (string_not_list spelled list).elim⟩
        intro other more string forkId left held
        obtain ⟨_,_,read,rfl⟩ := value_string string
        cases value.symm.trans read
        exact unread forkId (decoded_some.mpr ⟨left,held⟩)
      · rintro ⟨agrees,_⟩ forkId decoded
        obtain ⟨left,held⟩ := decoded_some.mp decoded
        exact agrees _ _ spelled forkId left (items ▸ held)
    | list =>
      by_cases held : ∃ forkId left,ForkIdAt val.items forkId left
      · refine iff_of_true ?_ ⟨fun other more string => (string_not_list string spelled).elim,?_⟩
        · obtain ⟨forkId,left,held⟩ := held
          rw [decoded_some.mpr ⟨left,held⟩,parsed_some,spelled]
          exact ⟨_,(items ▸ held).extend rest.bytes⟩
        · intro other more list
          obtain ⟨_,_,read,listed⟩ := value_list list
          cases value.symm.trans read
          exact .inl (listed ▸ held)
      · have undecoded := Option.eq_none_iff_forall_ne_some.mpr fun forkId decoded => held ⟨forkId,decoded_some.mp decoded⟩
        rw [undecoded,Option.eq_none_iff_forall_ne_some]
        constructor
        · intro unread
          refine ⟨fun other more string => (string_not_list string spelled).elim,fun payload more list => .inr ?_⟩
          intro forkId left found
          exact unread forkId (parsed_some.mpr ⟨left,found⟩)
        · rintro ⟨_,agrees⟩ forkId parsed
          obtain ⟨left,found⟩ := parsed_some.mp parsed
          rcases agrees _ _ spelled with inside | outside
          · exact held (items ▸ inside)
          · exact outside forkId left found

inductive EthBehind : List UInt8 → List UInt8 → Prop where
  | here : EthBehind (encodeString kEthKey ++ behind) behind
  | next (other : key ≠ kEthKey) (value : IsItem piece) (later : EthBehind rest behind) :
      EthBehind (encodeString key ++ (piece ++ rest)) behind

theorem ethValue_sound (fuel : Nat) (v : ByteView) (found : ethValue fuel v = some view) : EthBehind v.bytes view.bytes := by
  induction fuel generalizing v with
  | zero => cases found
  | succ fuel ih =>
    rw [ethValue] at found
    cases read : readBytes v with
    | error error => rw [read] at found; cases found
    | ok result =>
      obtain ⟨key,behind⟩ := result
      rw [read] at found
      dsimp only at found
      rw [readBytes_sound read]
      split_ifs at found with eth
      · cases found
        exact eth ▸ .here
      cases skipped : skipItem behind with
      | error error => rw [skipped] at found; cases found
      | ok rest =>
        rw [skipped] at found
        obtain ⟨piece,spelled,item⟩ := (skipOne_exact behind () rest).mp (bind_ok.mpr ⟨rest,skipped,rfl⟩)
        have bytes : behind.bytes = piece ++ rest.bytes := spelled
        rw [bytes]
        exact .next eth item (ih rest found)

-- The induction is on the pairs in front of the key; every one of them takes a
-- round of the loop and at least a byte.
theorem ethValue_complete (found : EthBehind stream behind) :
    ∀ (fuel : Nat) (v : ByteView),v.bytes = stream → stream.length ≤ fuel → ∃ view,ethValue fuel v = some view ∧ view.bytes = behind := by
  induction found with
  | here =>
    intro fuel v spelled enough
    cases fuel with
    | zero => cases enough
    | succ fuel =>
      obtain ⟨view,rfl⟩ := ByteView.exists_behind spelled
      rw [ethValue,readBytes_complete spelled]
      exact ⟨view,if_pos rfl,rfl⟩
  | @next key piece _ _ other value later ih =>
    intro fuel v spelled enough
    have filled := List.length_pos_iff.mpr (encodeString_nonempty key)
    rw [List.length_append,List.length_append] at enough
    obtain ⟨fuel,rfl⟩ := Nat.exists_eq_succ_of_ne_zero (show fuel ≠ 0 by omega)
    obtain ⟨view,spelled,first⟩ := v.cut spelled
    obtain ⟨rest,first,second⟩ := view.cut first
    rw [ethValue,readBytes_complete spelled]
    dsimp only
    rw [if_neg other,skipItem_item value first]
    exact ih fuel rest second (by omega)

theorem parseEthForkId_layout (layout : Layout raw) : parseEthForkId raw = findEthForkId layout.stream.length layout.stream := by
  obtain ⟨view,rest,read,elements⟩ := layout.opens
  obtain ⟨header,room,signature⟩ := (readSignature_exact raw _).mp read
  have number : IsItem layout.seqBytes := by
    rcases layout.number with scalar | ⟨zero,_⟩
    · rw [scalar]
      exact .string _
    · rw [zero]
      exact IsItem.string [0x00]
  have filled : raw.bytes ≠ [] := by
    rw [header,listHeader]
    exact List.append_ne_nil_of_left_ne_nil (List.length_pos_iff.mp (header_pos ..)) _
  have skipped : skipItem view = .ok rest := skipItem_item (.string _) signature
  unfold parseEthForkId
  rw [if_neg filled,(expectList_exact raw view).mpr ⟨header,room⟩,ok_bind]
  dsimp only
  rw [skipped,ok_bind,skipItem_item number (elements.trans layout.behind),ok_bind]

theorem fork_ids_agree_iff (text : AddressText) (raw : ByteView) (record : EnrRecord) (decoded : decodeRlp text raw = .ok record) :
    Nonempty (Layout raw) ∧ ∀ layout : Layout raw,(layout.pairs.map Prod.fst).count kEthKey ≤ 1 →
      ((parseEthForkId raw).toOption = record.ethForkId ↔ ∀ behind,EthBehind layout.stream.bytes behind → EthAgrees behind) := by
  refine ⟨decodeRlp_layout decoded,fun layout once => ?_⟩
  obtain ⟨_,reads⟩ := readPairs_reads layout.stream (Nat.le_refl _)
  have pairs := (reads.unique layout.reads layout.stream.fits).1
  rw [← pairs] at once
  have kept := readPairs_eth text layout.stream layout.start rfl once
  rw [layout.record_unique decoded,Layout.record,← pairs,kept,parseEthForkId_layout,findEthForkId_eq]
  cases found : ethValue layout.stream.length layout.stream with
  | none =>
    refine iff_of_true rfl fun behind key => ?_
    obtain ⟨view,shown,_⟩ := ethValue_complete key _ layout.stream rfl (Nat.le_refl _)
    cases found.symm.trans shown
  | some view =>
    refine eth_agrees_iff.trans ⟨fun agrees behind key => ?_,fun agrees => agrees _ (ethValue_sound _ _ found)⟩
    obtain ⟨_,shown,rfl⟩ := ethValue_complete key _ layout.stream rfl (Nat.le_refl _)
    cases found.symm.trans shown
    exact agrees

def forkPairs (entry later : List UInt8) : List UInt8 :=
  encodeString kEthKey ++ (entry ++ (later ++ field "secp256k1" Enr.nodeKey.toList))

def forkRecord (entry later : List UInt8) : List UInt8 :=
  encodeList (encodeString (List.replicate 64 0x01) ++ (encodeScalar 1 ++ forkPairs entry later))

def forkEntry : List UInt8 := encodeList (encodeList (encodeString [0xDE,0xAD,0xBE,0xEF] ++ encodeScalar 7))

def listedRecord : ByteView := ⟨forkRecord forkEntry [],by decide +kernel⟩

theorem listed_entry_agrees : ∃ record,∃ layout : Layout listedRecord,decodeRlp dottedText listedRecord = .ok record ∧
      (layout.pairs.map Prod.fst).count kEthKey ≤ 1 ∧ record.ethForkId.isSome ∧
      (parseEthForkId listedRecord).toOption = record.ethForkId ∧ ((parseEthForkId listedRecord).toOption = record.ethForkId ↔
        ∀ behind,EthBehind layout.stream.bytes behind → EthAgrees behind) := by
  have ran : (decodeRlp dottedText listedRecord).toOption.map (fun record =>
      decide (record.ethForkId.isSome ∧ (parseEthForkId listedRecord).toOption = record.ethForkId)) = some true := by
    decide +kernel
  cases decoded : decodeRlp dottedText listedRecord with
  | error error => rw [decoded] at ran; cases ran
  | ok record =>
    rw [decoded] at ran
    obtain ⟨found,same⟩ := of_decide_eq_true (Option.some.inj ran)
    let stream : ByteView := ⟨forkPairs forkEntry [],by decide +kernel⟩
    obtain ⟨left,reads⟩ := readPairs_reads stream (Nat.le_refl _)
    have once : ((readPairs stream.length stream).map Prod.fst).count kEthKey ≤ 1 := by decide +kernel
    let layout : Layout listedRecord :=
      { sig := ⟨List.replicate 64 0x01,rfl⟩
        elements := ⟨encodeScalar 1 ++ forkPairs forkEntry [],by decide +kernel⟩
        tail := []
        seqBytes := encodeScalar 1
        seq := 1#64
        stream := stream
        pairs := readPairs stream.length stream
        left := left
        nonempty := by decide +kernel
        outer := by decide +kernel
        number := .inl rfl
        behind := List.append_nil _
        reads := reads }
    exact ⟨record,layout,rfl,once,found,same,(fork_ids_agree_iff dottedText listedRecord record decoded).2 layout once⟩

-- An entry that is sent as a string is found by the one parser only, and an
-- empty entry is filled by the other from the fields behind it.
theorem entry_shapes_disagree :
    ((decodeRlp dottedText ⟨forkRecord (encodeString forkEntry) [],by decide +kernel⟩).map fun record =>
      record.ethForkId.isSome) = .ok true ∧
    (parseEthForkId ⟨forkRecord (encodeString forkEntry) [],by decide +kernel⟩).isOk = false ∧
    ((decodeRlp dottedText ⟨forkRecord (encodeList (encodeList [])) (field "tcp6" [7]),by decide +kernel⟩).map fun record =>
      record.ethForkId.isSome) = .ok false ∧
    (parseEthForkId ⟨forkRecord (encodeList (encodeList [])) (field "tcp6" [7]),by decide +kernel⟩).isOk = true := by
  refine ⟨?_,?_,?_,?_⟩ <;> decide +kernel

end EvmRelay.Discv4
