import EvmRelay.Endian
import EvmRelay.RlpSpec

namespace EvmRelay.Rlp
open RlpSpec

abbrev kMaxShortStringLen : Nat := 55
abbrev kMaxShortListLen : Nat := 55
abbrev kShortStringOffset : Nat := 0x80
abbrev kLongStringOffset : Nat := 0xB7
abbrev kShortListOffset : Nat := 0xC0
abbrev kLongListOffset : Nat := 0xF7
abbrev kSingleByteStringSize : Nat := 2
abbrev kRlpSingleByteThreshold : Nat := 0x80
abbrev kEmptyStringCode : UInt8 := 0x80
abbrev kLongPrefixByteSize : Nat := 1

structure Header where
  list : Bool
  payloadSizeBytes : Nat
  headerSizeBytes : Nat
  deriving DecidableEq

-- The long string and the long list branch differ in their constants only.
def longHeader (list : Bool) (offset limit b : Nat) (v : ByteView) : Except DecodingError (Header × ByteView) :=
  let headerSize := 1 + (b - offset)
  if v.length < headerSize then .error .kInputTooShort
  else do
    let len64 ← Endian.fromBigCompact 64 (v.substr 1 (headerSize - 1)).bytes
    if len64.toNat ≤ limit then .error .kNonCanonicalSize
    else .ok (⟨list,len64.toNat,headerSize⟩,v.removePrefix headerSize)

def shortString (b : Nat) (v : ByteView) : Except DecodingError (Header × ByteView) :=
  let payload := b - kShortStringOffset
  if v.length < 1 then .error .kInputTooShort
  else if payload = 1 ∧ v.length < kSingleByteStringSize then .error .kInputTooShort
  else if payload = 1 ∧ (v.bytes.getD 1 0).toNat < kShortStringOffset then .error .kNonCanonicalSize
  else .ok (⟨false,payload,1⟩,v.removePrefix 1)

def shortList (b : Nat) (v : ByteView) : Except DecodingError (Header × ByteView) :=
  if v.length < 1 then .error .kInputTooShort
  else .ok (⟨true,b - kShortListOffset,1⟩,v.removePrefix 1)

def headerForm (b : Nat) (v : ByteView) : Except DecodingError (Header × ByteView) :=
  if b < kShortStringOffset then .ok (⟨false,1,0⟩,v)
  else if b ≤ kMaxShortStringLen + kShortStringOffset then shortString b v
  else if b < kShortListOffset then longHeader false kLongStringOffset kMaxShortStringLen b v
  else if b ≤ kMaxShortListLen + kShortListOffset then shortList b v
  else longHeader true kLongListOffset kMaxShortListLen b v

-- decode_header_impl: the header, and the view past it.
def decodeHeaderImpl (v : ByteView) : Except DecodingError (Header × ByteView) :=
  match v.bytes with
  | [] => .error .kInputTooShort
  | first :: _ =>
    let b := first.toNat
    if v.length = 1 ∧ 0xF9 ≤ b then .error .kMalformedHeader
    else do
      let (h,rest) ← headerForm b v
      if kShortStringOffset ≤ b then
        if rest.length < h.payloadSizeBytes then .error .kInputTooShort else .ok (h,rest)
      else if v.length < 1 then .error .kInputTooShort
      else .ok (h,rest)

-- skip_header_internal reads the length of the header off the first byte again.
def headerLen (b : Nat) : Nat :=
  if b < kShortStringOffset then 0
  else if b ≤ kMaxShortStringLen + kShortStringOffset then 1
  else if b < kShortListOffset then 1 + (b - kLongStringOffset)
  else if b ≤ kMaxShortListLen + kShortListOffset then 1
  else 1 + (b - kLongListOffset)

def skipHeaderInternal (v : ByteView) : Except DecodingError ByteView :=
  match v.bytes with
  | [] => .error .kInputTooShort
  | first :: _ =>
    if v.length < headerLen first.toNat then .error .kInputTooShort
    else .ok (v.removePrefix (headerLen first.toNat))

-- What a header may look like in front of its payload. The decoder is held to
-- the specification's writer, not to a restatement of its own branches.
inductive Announces : List UInt8 → Header → Prop where
  | literal (small : byte.toNat < 0x80) : Announces (byte :: tail) ⟨false,1,0⟩
  | string (room : size ≤ tail.length) (needed : size = 1 → 0x80 ≤ (tail.headD 0).toNat) :
      Announces (stringHeader size ++ tail) ⟨false,size,(stringHeader size).length⟩
  | list (room : size ≤ tail.length) :
      Announces (listHeader size ++ tail) ⟨true,size,(listHeader size).length⟩

theorem headerForm_eq : headerForm b v = if b < 0x80 then .ok (⟨false,1,0⟩,v)
      else if b ≤ 0xB7 then shortString b v
      else if b < 0xC0 then longHeader false 0xB7 55 b v
      else if b ≤ 0xF7 then shortList b v
      else longHeader true 0xF7 55 b v := rfl

theorem shortString_eq : shortString b v = if v.length < 1 then .error .kInputTooShort
      else if b - 0x80 = 1 ∧ v.length < 2 then .error .kInputTooShort
      else if b - 0x80 = 1 ∧ (v.bytes.getD 1 0).toNat < 0x80 then .error .kNonCanonicalSize
      else .ok (⟨false,b - 0x80,1⟩,v.removePrefix 1) := rfl

theorem shortList_eq : shortList b v = if v.length < 1 then .error .kInputTooShort
      else .ok (⟨true,b - 0xC0,1⟩,v.removePrefix 1) := rfl

theorem longHeader_sound (short : Nat) (spelled : v.bytes = first :: more)
    (above : offset < first.toNat) (accepted : longHeader list offset 55 first.toNat v = .ok (h,rest))
    (inside : h.payloadSizeBytes ≤ rest.length) : ∃ size tail, ¬ size ≤ 55 ∧ size ≤ tail.length ∧ v.bytes = header short offset size ++ tail ∧
      h = ⟨list,size,(header short offset size).length⟩ ∧ rest = v.removePrefix h.headerSizeBytes := by
  unfold longHeader at accepted
  dsimp only at accepted
  split_ifs at accepted with enough
  obtain ⟨len64,read,accepted⟩ := bind_ok.mp accepted
  split_ifs at accepted with large
  cases accepted
  simp only [ByteView.substr_bytes,spelled,List.drop_succ_cons,List.drop_zero,Nat.add_sub_cancel_left] at read
  have size : v.length = more.length + 1 := by rw [ByteView.length,spelled,List.length_cons]
  have digits : more.take (first.toNat - offset) = BigEndian.minimal len64.toNat := by
    rcases Endian.fromBigCompact_sound read with shortest | ⟨_,zero⟩
    · exact shortest
    · rw [zero] at large; simp at large
  have count : BigEndian.byteLength len64.toNat = first.toNat - offset := by
    rw [← BigEndian.minimal_length,← digits,List.length_take]
    omega
  have lead : UInt8.ofNat (offset + BigEndian.byteLength len64.toNat) = first := by
    rw [count,Nat.add_sub_cancel' (by omega),UInt8.ofNat_toNat]
  simp only [ByteView.removePrefix_length,size] at inside
  refine ⟨len64.toNat,more.drop (first.toNat - offset),large,?_,?_,?_,rfl⟩
  · rw [List.length_drop]
    omega
  · rw [header_long large,lead,← digits,List.cons_append,List.take_append_drop,spelled]
  · rw [header_length,if_neg large,count]

theorem longHeader_complete (large : ¬ size ≤ 55) (spelled : v.bytes = header short offset size ++ tail)
    (room : size ≤ tail.length) (low : offset + 8 < 256) :
    ∃ first more, v.bytes = first :: more ∧ first.toNat = offset + BigEndian.byteLength size ∧
      BigEndian.byteLength size ≤ 8 ∧ longHeader list offset 55 first.toNat v =
        .ok (⟨list,size,(header short offset size).length⟩,v.removePrefix (header short offset size).length) := by
  have total : v.length = 1 + BigEndian.byteLength size + tail.length := by
    rw [ByteView.length,spelled,List.length_append,header_length,if_neg large]
  have small : size < 2 ^ 64 := by
    have bound := v.length_lt
    unfold sizeLimit at bound
    omega
  have few := byteLength_le_eight size small
  have lead := UInt8.toNat_ofNat_of_lt' (show offset + BigEndian.byteLength size < 256 by omega)
  have word : (BitVec.ofNat 64 size).toNat = size := Nat.mod_eq_of_lt small
  have read := Endian.fromBigCompact_complete (BitVec.ofNat 64 size) (by decide)
  rw [word] at read
  have bytes := spelled
  rw [header_long large,List.cons_append] at bytes
  refine ⟨_,_,bytes,lead,few,?_⟩
  unfold longHeader
  rw [lead,Nat.add_sub_cancel_left,if_neg (by omega)]
  apply bind_ok.mpr
  refine ⟨BitVec.ofNat 64 size,?_,?_⟩
  · rw [ByteView.substr_bytes,bytes,List.drop_succ_cons,List.drop_zero,Nat.add_sub_cancel_left,
      List.take_left' (BigEndian.minimal_length size)]
    exact read
  · rw [word,if_neg large,header_length,if_neg large]

-- In each branch a first byte in the branch's range, with the payload present
-- behind what the branch consumed, is the specification's header.
theorem shortString_sound (spelled : v.bytes = first :: more) (low : 0x80 ≤ first.toNat) (high : first.toNat ≤ 0xB7)
    (accepted : shortString first.toNat v = .ok (h,rest)) (room : h.payloadSizeBytes ≤ rest.length) :
    Announces v.bytes h ∧ rest = v.removePrefix h.headerSizeBytes := by
  have size : v.length = more.length + 1 := by rw [ByteView.length,spelled,List.length_cons]
  rw [shortString_eq] at accepted
  split_ifs at accepted with _ twoBytes canonical
  cases accepted
  have lead : stringHeader (first.toNat - 0x80) = [first] := by
    rw [stringHeader,header_short (by omega),Nat.add_sub_cancel' low,UInt8.ofNat_toNat]
  have needed : first.toNat - 0x80 = 1 → 0x80 ≤ (more.headD 0).toNat := by
    intro single
    cases more with
    | nil => exact absurd ⟨single,by rw [size]; decide⟩ twoBytes
    | cons second rest =>
      rw [spelled] at canonical
      by_contra below
      exact canonical ⟨single,by simpa using below⟩
  have announced := Announces.string (by simpa [ByteView.length,spelled] using room) needed
  rw [lead] at announced
  rw [spelled]
  exact ⟨announced,rfl⟩

theorem shortList_sound (spelled : v.bytes = first :: more) (low : 0xC0 ≤ first.toNat) (high : first.toNat ≤ 0xF7)
    (accepted : shortList first.toNat v = .ok (h,rest)) (room : h.payloadSizeBytes ≤ rest.length) :
    Announces v.bytes h ∧ rest = v.removePrefix h.headerSizeBytes := by
  rw [shortList_eq] at accepted
  split_ifs at accepted
  cases accepted
  have lead : listHeader (first.toNat - 0xC0) = [first] := by
    rw [listHeader,header_short (by omega),Nat.add_sub_cancel' low,UInt8.ofNat_toNat]
  have inside : first.toNat - 0xC0 ≤ more.length := by simpa [ByteView.length,spelled] using room
  have announced := Announces.list inside
  rw [lead] at announced
  rw [spelled]
  exact ⟨announced,rfl⟩

theorem headerForm_sound (spelled : v.bytes = first :: more) (formed : headerForm first.toNat v = .ok (h,rest))
    (room : 0x80 ≤ first.toNat → h.payloadSizeBytes ≤ rest.length) :
    Announces v.bytes h ∧ rest = v.removePrefix h.headerSizeBytes := by
  rw [headerForm_eq] at formed
  split_ifs at formed with literal string longString list
  · cases formed
    rw [spelled]
    exact ⟨.literal literal,rfl⟩
  all_goals have inside := room (by omega)
  · exact shortString_sound spelled (by omega) string formed inside
  · obtain ⟨size,tail,large,fits,bytes,rfl,rfl⟩ := longHeader_sound 0x80 spelled (by omega) formed inside
    rw [bytes]
    exact ⟨.string fits (fun single => absurd single (by omega)),rfl⟩
  · exact shortList_sound spelled (by omega) list formed inside
  · obtain ⟨size,tail,_,fits,bytes,rfl,rfl⟩ := longHeader_sound 0xC0 spelled (by omega) formed inside
    rw [bytes]
    exact ⟨.list fits,rfl⟩

theorem headerForm_complete (announced : Announces v.bytes h) : ∃ first more, v.bytes = first :: more ∧
      headerForm first.toNat v = .ok (h,v.removePrefix h.headerSizeBytes) := by
  generalize spelled : v.bytes = bytes at announced
  cases announced with
  | @literal byte tail small => exact ⟨byte,tail,rfl,if_pos small⟩
  | @string size tail room needed =>
    by_cases short : size ≤ 55
    · have lead := UInt8.toNat_ofNat_of_lt' (show 0x80 + size < 256 by omega)
      have bytes := spelled
      rw [stringHeader,header_short short] at bytes ⊢
      have total : v.length = tail.length + 1 := by rw [ByteView.length,bytes]; simp
      have second : v.bytes.getD 1 0 = tail.headD 0 := by rw [bytes]; cases tail <;> rfl
      refine ⟨_,_,rfl,?_⟩
      rw [headerForm_eq,lead,if_neg (by omega),if_pos (by omega),shortString_eq,Nat.add_sub_cancel_left,if_neg (by omega),
        if_neg (by omega),second,if_neg (fun bad => by have := needed bad.1; omega)]
      rfl
    · obtain ⟨first,more,bytes,lead,few,made⟩ := longHeader_complete short spelled room (by decide)
      have positive := BigEndian.byteLength_pos (show size ≠ 0 by omega)
      refine ⟨first,more,by rw [← spelled,bytes],?_⟩
      rw [headerForm_eq,if_neg (by omega),if_neg (by omega),if_pos (by omega)]
      exact made
  | @list size tail room =>
    by_cases short : size ≤ 55
    · have lead := UInt8.toNat_ofNat_of_lt' (show 0xC0 + size < 256 by omega)
      have bytes := spelled
      rw [listHeader,header_short short] at bytes ⊢
      have total : v.length = tail.length + 1 := by rw [ByteView.length,bytes]; simp
      refine ⟨_,_,rfl,?_⟩
      rw [headerForm_eq,lead,if_neg (by omega),if_neg (by omega),if_neg (by omega),if_pos (by omega),
        shortList_eq,Nat.add_sub_cancel_left,if_neg (by omega)]
      rfl
    · obtain ⟨first,more,bytes,lead,few,made⟩ := longHeader_complete short spelled room (by decide)
      have positive := BigEndian.byteLength_pos (show size ≠ 0 by omega)
      refine ⟨first,more,by rw [← spelled,bytes],?_⟩
      rw [headerForm_eq,if_neg (by omega),if_neg (by omega),if_neg (by omega),if_neg (by omega)]
      exact made

theorem Announces.room (announced : Announces bytes h) : h.headerSizeBytes + h.payloadSizeBytes ≤ bytes.length := by
  cases announced with
  | literal small => simp
  | string room needed => rw [List.length_append]; exact Nat.add_le_add_left room _
  | list room => rw [List.length_append]; exact Nat.add_le_add_left room _

theorem headerLen_eq : headerLen b = if b < 0x80 then 0
      else if b ≤ 0xB7 then 1
      else if b < 0xC0 then 1 + (b - 0xB7)
      else if b ≤ 0xF7 then 1
      else 1 + (b - 0xF7) := rfl

theorem longHeader_size (accepted : longHeader list offset limit b v = .ok (h,rest)) :
    h.headerSizeBytes = 1 + (b - offset) := by
  unfold longHeader at accepted
  dsimp only at accepted
  split_ifs at accepted
  obtain ⟨len64,_,checked⟩ := bind_ok.mp accepted
  split_ifs at checked
  cases checked
  rfl

theorem headerForm_size (formed : headerForm b v = .ok (h,rest)) : h.headerSizeBytes = headerLen b := by
  rw [headerForm_eq] at formed
  rw [headerLen_eq]
  split_ifs at formed ⊢
  · cases formed
    rfl
  · rw [shortString_eq] at formed
    split_ifs at formed
    cases formed
    rfl
  · exact longHeader_size formed
  · rw [shortList_eq] at formed
    split_ifs at formed
    cases formed
    rfl
  · exact longHeader_size formed

theorem decodeHeaderImpl_sound (accepted : decodeHeaderImpl v = .ok (h,rest)) :
    Announces v.bytes h ∧ rest = v.removePrefix h.headerSizeBytes := by
  unfold decodeHeaderImpl at accepted
  split at accepted
  · cases accepted
  rename_i first more spelled
  dsimp only at accepted
  split at accepted
  · cases accepted
  obtain ⟨⟨h',rest'⟩,formed,checked⟩ := bind_ok.mp accepted
  split_ifs at checked with literal room
  · cases checked
    exact headerForm_sound spelled formed (fun _ => Nat.le_of_not_lt room)
  · cases checked
    exact headerForm_sound spelled formed (fun headed => absurd headed literal)

theorem decodeHeaderImpl_complete (announced : Announces v.bytes h) :
    decodeHeaderImpl v = .ok (h,v.removePrefix h.headerSizeBytes) := by
  obtain ⟨first,more,spelled,formed⟩ := headerForm_complete announced
  have room : h.headerSizeBytes + h.payloadSizeBytes ≤ v.length := announced.room
  have size := headerForm_size formed
  have total : v.length = more.length + 1 := by rw [ByteView.length,spelled,List.length_cons]
  have reserved : ¬ (v.length = 1 ∧ 0xF9 ≤ first.toNat) := by
    rw [headerLen_eq] at size
    split_ifs at size <;> omega
  unfold decodeHeaderImpl
  rw [spelled]
  dsimp only
  rw [if_neg reserved]
  apply bind_ok.mpr
  refine ⟨_,formed,?_⟩
  rw [ByteView.removePrefix_length,if_neg (show ¬ v.length - h.headerSizeBytes < h.payloadSizeBytes by omega),
    if_neg (show ¬ v.length < 1 by omega),ite_self]

theorem decodeHeaderImpl_exact (v : ByteView) (h : Header) :
    decodeHeaderImpl v = .ok (h,rest) ↔ Announces v.bytes h ∧ rest = v.removePrefix h.headerSizeBytes := by
  refine ⟨decodeHeaderImpl_sound,?_⟩
  rintro ⟨announced,rfl⟩
  exact decodeHeaderImpl_complete announced

theorem skipHeaderInternal_exact (announced : Announces v.bytes h) :
    skipHeaderInternal v = .ok (v.removePrefix h.headerSizeBytes) := by
  obtain ⟨first,more,spelled,formed⟩ := headerForm_complete announced
  have room : h.headerSizeBytes + h.payloadSizeBytes ≤ v.length := announced.room
  have size := headerForm_size formed
  unfold skipHeaderInternal
  rw [spelled]
  dsimp only
  rw [← size,if_neg (by omega)]

end EvmRelay.Rlp
