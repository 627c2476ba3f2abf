import EvmRelay.EthRoundTrip
import EvmRelay.EthFraming

namespace EvmRelay.Eth
open Rlp RlpSpec Reader Codec

abbrev EnvelopeType := {byte : UInt8 // 0x01 ≤ byte ∧ byte ≤ 0x7F}

-- A receipt as a peer sends it: as its list, or as one string that holds a type
-- byte and that list.
structure SentReceipt where
  receipt : Receipt
  envelope : Option EnvelopeType
  single : receipt.stateRoot.isSome ≠ receipt.status.isSome

def sentWire (sent : SentReceipt) : Wire :=
  match sent.envelope with
  | none => receiptWire sent.receipt
  | some type => (receiptWire sent.receipt).map fun legacy => encodeString (type.val :: legacy)

def sentBlocksWire (blocks : StdVector (StdVector SentReceipt)) : Wire :=
  Wire.list (Wire.each (fun block => Wire.list (Wire.each sentWire block.items)) blocks.items)

def sentReceipts (blocks : StdVector (StdVector SentReceipt)) : StdVector (StdVector Receipt) :=
  blocks.map fun block => block.map SentReceipt.receipt

section overlap
variable {α : Type} {block : List α}

def Occurs (word text : List α) (place : Nat) : Prop := word <+: text.drop place

theorem Occurs.here (front word back : List α) : Occurs word (front ++ (word ++ back)) front.length := by
  unfold Occurs
  rw [List.drop_left]
  exact List.prefix_append word back

theorem Occurs.moved (inside : place + word.length ≤ block.length) (first : Occurs block text one) (second : Occurs block text two)
    (found : Occurs word text (one + place)) : Occurs word text (two + place) := by
  obtain ⟨behind,left⟩ := first
  obtain ⟨after,right⟩ := second
  unfold Occurs at found ⊢
  rw [← List.drop_drop,← left,List.drop_append_of_le_length (by omega)] at found
  rw [← List.drop_drop,← right,List.drop_append_of_le_length (by omega)]
  have short := List.prefix_of_prefix_length_le found (List.prefix_append _ _) (by
    rw [List.length_drop]
    omega)
  exact short.trans (List.prefix_append _ _)

theorem Occurs.descends (ordered : one < two) (first : Occurs block text one) (second : Occurs block text two) (found : Occurs word text place)
    (above : one ≤ place) (inside : place + word.length ≤ two + block.length) :
    ∃ earlier,one ≤ earlier ∧ earlier < two ∧ Occurs word text earlier := by
  induction place using Nat.strongRecOn with
  | ind place ih =>
    by_cases before : place < two
    · exact ⟨place,above,before,found⟩
    · obtain ⟨gap,rfl⟩ := Nat.exists_eq_add_of_le (Nat.le_of_not_lt before)
      have moved := second.moved (by omega) first found
      exact ih (one + gap) (by omega) moved (Nat.le_add_right _ _) (by omega)

theorem Occurs.symbol (found : Occurs word text place) (inside : offset < word.length) : text[place + offset]? = word[offset]? := by
  obtain ⟨behind,spelled⟩ := found
  rw [← List.getElem?_drop,← spelled,List.getElem?_append_left inside]

theorem Occurs.copied (same : front ++ (block ++ after) = other ++ (block ++ more)) (ordered : front.length < other.length)
    (holds : block = lead ++ (word ++ rest)) :
    ∃ place,front.length ≤ place ∧ place < other.length ∧ Occurs word (other ++ (block ++ more)) place := by
  have first : Occurs block (other ++ (block ++ more)) front.length := same ▸ Occurs.here front block after
  have second := Occurs.here other block more
  have found : Occurs word (other ++ (block ++ more)) (front.length + lead.length) := by
    have here := Occurs.here (front ++ lead) word (rest ++ after)
    rw [← same,holds]
    simpa [List.append_assoc] using here
  refine Occurs.descends ordered first second found (Nat.le_add_right _ _) ?_
  rw [holds]
  simp
  omega

end overlap

theorem receiptFields_parts (read : readReceiptFields v = .ok (receipt,rest)) :
    ∃ payload gas after,v.bytes = encodeString payload ++ (gas ++ (fixedWire receipt.bloom ++ after)) ∧
      statusOf payload = .ok (receipt.stateRoot,receipt.status) ∧ UnsignedForm gas receipt.cumulativeGasUsed := by
  obtain ⟨⟨root,status⟩,view,one,read⟩ := bind_ok_iff.mp read
  obtain ⟨gas,left,two,read⟩ := bind_ok_iff.mp read
  obtain ⟨bloom,last,three,read⟩ := bind_ok_iff.mp read
  obtain ⟨logs,_,_,read⟩ := bind_ok_iff.mp read
  cases read
  obtain ⟨_,head,payload,rfl,found⟩ := (statusOrStateRoot_exact v _ view).mp one
  obtain ⟨piece,used,formed⟩ := (orError_exact _ readWord_exact view gas left).mp two
  obtain ⟨_,filter,rfl⟩ := (orError_exact _ (readFixed_exact 256) left bloom last).mp three
  rw [used,filter] at head
  exact ⟨payload,piece,last.bytes,head,found,formed⟩

theorem statusOf_cases (found : statusOf payload = .ok (root,status)) :
    (payload.length = 32 ∧ status = none ∧ ∃ hash : Hash256,root = some hash ∧ hash.toList = payload) ∨
    (root = none ∧ status.isSome ∧ (encodeString payload).length ≤ 2) := by
  unfold statusOf at found
  split_ifs at found with width
  · cases found
    exact Or.inl ⟨width,rfl,⟨payload,width⟩,rfl,rfl⟩
  split at found
  · cases found
    exact Or.inr ⟨rfl,rfl,by decide⟩
  · cases found
    refine Or.inr ⟨rfl,rfl,?_⟩
    unfold encodeString
    split <;> simp [stringHeader,header]
  · cases found

def bloomStart : List UInt8 := [0xB9,0x01,0x00]

theorem fixedWire_bloom (bloom : Bloom) : fixedWire bloom = bloomStart ++ bloom.toList := by
  have width := bloom.toList_length
  rw [fixedWire,encodeString_headed (Or.inl (by omega)),width]
  rfl

section early
variable {bloom : Bloom}

theorem zero_bloom (same : front ++ (first ++ (encodeString [0] ++ (fixedWire bloom ++ after))) =
      other ++ (head ++ (encodeScalar 0 ++ (fixedWire bloom ++ more)))) :
    Occurs bloomStart (other ++ (head ++ (encodeScalar 0 ++ (fixedWire bloom ++ more)))) (front.length + first.length + 1) ∧
    (other ++ (head ++ (encodeScalar 0 ++ (fixedWire bloom ++ more))))[other.length + head.length]? = some 0x80 := by
  constructor
  · have here := Occurs.here (front ++ first ++ encodeString [0]) bloomStart (bloom.toList ++ after)
    rw [← same,fixedWire_bloom]
    simpa [List.append_assoc,encodeString,Nat.add_assoc] using here
  · rw [← List.append_assoc,← List.length_append,List.getElem?_append_right (Nat.le_refl _),Nat.sub_self,encodeScalar_zero]
    rfl

theorem bloomStart_symbol (found : Occurs bloomStart text place) (above : place ≤ offset) (below : offset < place + 3) :
    text[offset]? ≠ some 0x80 := by
  obtain ⟨gap,rfl⟩ := Nat.exists_eq_add_of_le above
  rw [found.symbol (show gap < bloomStart.length by simp [bloomStart]; omega)]
  match gap with
  | 0 => decide
  | 1 => decide
  | 2 => decide
  | gap + 3 => omega

theorem fixedWire_hash (hash : Hash256) : fixedWire hash = 0xA0 :: hash.toList := by
  have width := hash.toList_length
  rw [fixedWire,encodeString_headed (Or.inl (by omega)),width]
  rfl

-- Before its own bloom, an envelope that is read as the receipt it holds has
-- the start of a bloom already.
theorem root_bloom_early {hash : Hash256} (formed : UnsignedForm found gas) (leads : 0 < front.length)
    (ordered : front.length < other.length) (same : front ++ (fixedWire hash ++ (found ++ (fixedWire bloom ++ after))) =
      other ++ (fixedWire hash ++ (encodeScalar gas.toNat ++ (fixedWire bloom ++ more)))) :
    ∃ place,2 ≤ place ∧ place ≤ other.length ∧
      Occurs bloomStart (other ++ (fixedWire hash ++ (encodeScalar gas.toNat ++ (fixedWire bloom ++ more)))) place := by
  have width : (fixedWire hash).length = 33 := by simp [fixedWire_hash]
  have early : ∃ place,front.length ≤ place ∧ place < other.length ∧
      Occurs bloomStart (other ++ (fixedWire hash ++ (encodeScalar gas.toNat ++ (fixedWire bloom ++ more)))) place := by
    rcases formed with rfl | ⟨rfl,rfl⟩
    · have cut : front ++ ((fixedWire hash ++ encodeScalar gas.toNat ++ fixedWire bloom) ++ after) =
          other ++ ((fixedWire hash ++ encodeScalar gas.toNat ++ fixedWire bloom) ++ more) := by
        simpa [List.append_assoc] using same
      obtain ⟨place,above,below,found⟩ := Occurs.copied cut ordered (by rw [fixedWire_bloom])
      exact ⟨place,above,below,by simpa [List.append_assoc] using found⟩
    · obtain ⟨found,zero⟩ := zero_bloom same
      refine Occurs.descends ordered (same ▸ Occurs.here _ _ _) (Occurs.here _ _ _) found (by omega) ?_
      rw [width]
      apply Nat.le_of_not_lt
      intro beyond
      exact bloomStart_symbol found (by omega) (by simp [bloomStart] at beyond; omega) zero
  obtain ⟨place,above,below,found⟩ := early
  refine ⟨place,?_,Nat.le_of_lt below,found⟩
  apply Nat.lt_of_le_of_ne (Nat.le_trans leads above)
  intro single
  -- The second byte would be the header of the root.
  have byte := found.symbol (show 0 < bloomStart.length by decide)
  have start : place = front.length := by omega
  rw [← same,start,List.getElem?_append_right (Nat.le_add_right _ _),fixedWire_hash] at byte
  simp [bloomStart] at byte

theorem status_bloom_early (formed : UnsignedForm found gas) (leads : 0 < front.length)
    (ordered : front.length + 1 < other.length) (one : 0 < first.length) (two : first.length ≤ 2)
    (same : front ++ (first ++ (found ++ (fixedWire bloom ++ after))) =
      other ++ ([status] ++ (encodeScalar gas.toNat ++ (fixedWire bloom ++ more)))) :
    ∃ place,2 ≤ place ∧ place ≤ other.length ∧
      Occurs bloomStart (other ++ ([status] ++ (encodeScalar gas.toNat ++ (fixedWire bloom ++ more)))) place := by
  rcases formed with rfl | ⟨rfl,rfl⟩
  · have cut : (front ++ first) ++ ((encodeScalar gas.toNat ++ fixedWire bloom) ++ after) =
        (other ++ [status]) ++ ((encodeScalar gas.toNat ++ fixedWire bloom) ++ more) := by
      simpa [List.append_assoc] using same
    obtain ⟨place,above,below,found⟩ := Occurs.copied cut (by simp; omega) (by rw [fixedWire_bloom])
    rw [List.length_append] at above below
    exact ⟨place,by omega,Nat.le_of_lt_succ below,by simpa [List.append_assoc] using found⟩
  · obtain ⟨found,zero⟩ := zero_bloom same
    refine ⟨_,by omega,?_,found⟩
    apply Nat.le_of_not_lt
    intro beyond
    exact bloomStart_symbol found (by simp; omega) (by simp; omega) zero

end early

-- The bytes between the header of the string and the fields of the receipt, for
-- envelopes of two and of three length bytes that start like a list.
inductive EnvelopeStart (type : UInt8) : List UInt8 → Prop where
  | two (high : 0xBF ≤ e) : EnvelopeStart type [a,b,type,0xF9,e,f]
  | three (high : 0xBF ≤ e) : EnvelopeStart type [a,b,c,type,0xFA,e,f,g]

theorem EnvelopeStart.no_bloom (starts : EnvelopeStart type start)
    (typed : type ≤ 0x7F) (other : 0xB9 ≠ head) (some : 0 ≠ head) (single : 0x01 = head → 0 ≠ next)
    (above : 2 ≤ place) (below : place ≤ start.length) : ¬ Occurs bloomStart (start ++ head :: next :: more) place := by
  intro found
  have low : 0xB9 ≠ type := by
    rintro rfl
    exact absurd typed (by decide)
  have digit {e : UInt8} (high : 0xBF ≤ e) : 0xB9 ≠ e := by
    rintro rfl
    exact absurd high (by decide)
  unfold Occurs bloomStart at found
  cases starts with
  | two high =>
    have different := digit high
    simp only [List.length_cons,List.length_nil] at below
    interval_cases place <;> simp [low,other,different] at found
    exact single found.2.1 found.2.2
  | three high =>
    have different := digit high
    simp only [List.length_cons,List.length_nil] at below
    interval_cases place <;> simp [low,other,some,different] at found
    exact single found.2.1 found.2.2

theorem listHeader_short (few : size < 256 ^ width) : (listHeader size).length ≤ width + 1 := by
  have digits := BigEndian.byteLength_le few
  rw [listHeader,header_length]
  split <;> omega

theorem fixed_two : BigEndian.fixed 2 n = [UInt8.ofNat (n / 256),UInt8.ofNat n] := rfl

theorem fixed_three : BigEndian.fixed 3 n = [UInt8.ofNat (n / 256 / 256),UInt8.ofNat (n / 256),UInt8.ofNat n] := rfl

theorem byte_ge (small : n < 256) : bound ≤ UInt8.ofNat n ↔ bound.toNat ≤ n := by
  rw [UInt8.le_iff_toNat_le,UInt8.toNat_ofNat',Nat.mod_eq_of_lt small]

-- The list in an envelope is nearly as long as the envelope, so a first length
-- byte above 0xBF leaves it as many length bytes.
theorem content_width (total : n = size + (listHeader size).length + 1) (long : ¬ size ≤ 55)
    (room : width + 3 ≤ 256 ^ width) (high : 192 * 256 ^ width ≤ n) (few : n < 256 ^ (width + 1)) :
    listHeader size = UInt8.ofNat (0xF7 + (width + 1)) :: BigEndian.fixed (width + 1) size ∧ 191 * 256 ^ width ≤ size := by
  have wide : (listHeader size).length = BigEndian.byteLength size + 1 := by
    rw [listHeader,header_length,if_neg long]
    omega
  have short : BigEndian.byteLength size ≤ width + 1 := BigEndian.byteLength_le (by omega)
  have large : 191 * 256 ^ width ≤ size := by omega
  have digits := BigEndian.byteLength_eq (show 256 ^ width ≤ size by omega) (by omega)
  refine ⟨?_,large⟩
  rw [listHeader,header_long long,BigEndian.minimal,digits]

theorem envelope_start (large : 256 ≤ content.length) (few : (type :: encodeList content).length < 2 ^ 24)
    (digits : BigEndian.minimal (type :: encodeList content).length = first :: more) (high : 0xC0 ≤ first) :
    ∃ width,1 < width ∧ (type :: encodeList content).length < 256 ^ width ∧
      (first :: more ++ type :: listHeader content.length).length = 2 * width + 2 ∧
      EnvelopeStart type (first :: more ++ type :: listHeader content.length) := by
  have total : (type :: encodeList content).length = content.length + (listHeader content.length).length + 1 := by
    rw [List.length_cons,encodeList,List.length_append]
    omega
  generalize (type :: encodeList content).length = n at *
  have long : ¬ content.length ≤ 55 := by omega
  by_cases two : n < 256 ^ 2
  · have width := BigEndian.byteLength_eq (show 256 ^ 1 ≤ n by omega) two
    rw [BigEndian.minimal,width,fixed_two] at digits
    cases digits
    have high : 192 ≤ n / 256 := (byte_ge (by omega)).mp high
    obtain ⟨spelled,least⟩ := content_width (show n = _ from total) long (show 1 + 3 ≤ 256 ^ 1 by decide) (by omega) two
    rw [spelled,fixed_two]
    refine ⟨2,by omega,two,rfl,.two ((byte_ge (by omega)).mpr ?_)⟩
    show 191 ≤ _
    omega
  · have width := BigEndian.byteLength_eq (show 256 ^ 2 ≤ n by omega) few
    rw [BigEndian.minimal,width,fixed_three] at digits
    cases digits
    have high : 192 ≤ n / 256 / 256 := (byte_ge (by omega)).mp high
    obtain ⟨spelled,least⟩ := content_width (show n = _ from total) long (show 2 + 3 ≤ 256 ^ 2 by decide) (by omega) few
    rw [spelled,fixed_three]
    refine ⟨3,by omega,few,rfl,.three ((byte_ge (by omega)).mpr ?_)⟩
    show 191 ≤ _
    omega

-- An envelope below 2^24 bytes, or one whose length does not start like a list.
def WithinReach (envelope : List UInt8) : Prop :=
  envelope.length < 2 ^ 24 ∨ ∀ first more,BigEndian.minimal envelope.length = first :: more → first < kRlpListPrefixMin

-- Only the header byte of the string is dropped, so that its length bytes are
-- read as the header of the list.
theorem envelope_stripped (large : 56 ≤ envelope.length) (spelled : item.bytes = encodeString envelope) :
    (stripTypeByte item).bytes = BigEndian.minimal envelope.length ++ envelope := by
  have fits := item.fits
  rw [spelled] at fits
  have longer : envelope.length ≤ (encodeString envelope).length := encodeString_length ..
  have few := byteLength_le_eight envelope.length (Nat.lt_of_le_of_lt longer fits)
  rw [encodeString_headed (Or.inl (by omega)),stringHeader,header_long (by omega),List.cons_append] at spelled
  have low : UInt8.ofNat (0xB7 + BigEndian.byteLength envelope.length) < kRlpListPrefixMin := by
    rw [UInt8.lt_iff_toNat_lt,UInt8.toNat_ofNat',Nat.mod_eq_of_lt (by omega)]
    show _ < 192
    omega
  unfold stripTypeByte
  rw [spelled]
  dsimp only
  rw [if_pos low,ByteView.removePrefix_bytes,spelled]
  rfl

theorem encodeScalar_first (small : n < 2 ^ 256) : ∃ byte more,encodeScalar n = byte :: more ∧ 0 ≠ byte := by
  by_cases zero : n = 0
  · exact ⟨0x80,[],by rw [zero,encodeScalar_zero],by decide⟩
  by_cases low : n < 0x80
  · refine ⟨_,[],encodeScalar_small zero low,?_⟩
    intro same
    have byte := congrArg UInt8.toNat same
    rw [UInt8.toNat_ofNat',Nat.mod_eq_of_lt (by omega)] at byte
    exact zero byte.symm
  · have few := BigEndian.byteLength_le (show n < 256 ^ 32 from small)
    rw [encodeScalar_large (Nat.le_of_not_lt low),stringHeader,header_short (by omega)]
    refine ⟨_,_,rfl,?_⟩
    intro same
    have byte := congrArg UInt8.toNat same
    rw [UInt8.toNat_ofNat',Nat.mod_eq_of_lt (by omega)] at byte
    have byte : 0 = 0x80 + BigEndian.byteLength n := byte
    omega

theorem fields_early (single : receipt.stateRoot.isSome ≠ receipt.status.isSome) (leads : receiptHeadWire receipt = some head)
    (found : statusOf payload = .ok (receipt.stateRoot,receipt.status)) (formed : UnsignedForm gas receipt.cumulativeGasUsed)
    (some : 0 < front.length) (ordered : front.length + 1 < start.length)
    (same : front ++ (encodeString payload ++ (gas ++ (fixedWire receipt.bloom ++ after))) =
      start ++ (head ++ (encodeScalar receipt.cumulativeGasUsed.toNat ++ (fixedWire receipt.bloom ++ more)))) :
    ∃ first next rest place,head ++ (encodeScalar receipt.cumulativeGasUsed.toNat ++ (fixedWire receipt.bloom ++ more)) =
        first :: next :: rest ∧ 0xB9 ≠ first ∧ 0 ≠ first ∧ (0x01 = first → 0 ≠ next) ∧ 2 ≤ place ∧ place ≤ start.length ∧
      Occurs bloomStart (start ++ first :: next :: rest) place := by
  unfold receiptHeadWire at leads
  rcases statusOf_cases found with ⟨width,none,hash,root,rfl⟩ | ⟨none,_,short⟩
  · rw [root] at leads
    cases leads
    obtain ⟨place,above,below,early⟩ := root_bloom_early formed some (by omega) same
    obtain ⟨next,rest,bytes⟩ := List.exists_cons_of_ne_nil (List.length_pos_iff.mp (show 0 < hash.toList.length by omega))
    rw [fixedWire_hash,bytes] at early ⊢
    exact ⟨0xA0,next,_,place,rfl,by decide,by decide,fun wrong => absurd wrong (by decide),above,below,early⟩
  · rw [none] at leads
    cases status : receipt.status with
    | none =>
      rw [none,status] at single
      exact absurd rfl single
    | some flag =>
      rw [status] at leads
      cases leads
      obtain ⟨next,rest,bytes,nonzero⟩ := encodeScalar_first receipt.cumulativeGasUsed.isLt
      have byte : ∃ first,encodeScalar flag.toNat = [first] ∧ 0xB9 ≠ first ∧ 0 ≠ first := by
        cases flag with
        | false => exact ⟨0x80,rfl,by decide,by decide⟩
        | true => exact ⟨0x01,rfl,by decide,by decide⟩
      obtain ⟨first,spelled,other,positive⟩ := byte
      rw [spelled] at same ⊢
      obtain ⟨place,above,below,early⟩ := status_bloom_early formed some ordered (encodeString_pos ..) short same
      rw [bytes] at early ⊢
      exact ⟨first,next,_,place,rfl,other,positive,fun _ => nonzero,above,below,early⟩

theorem decodeReceipt_parts (decoded : decodeReceipt item = .ok receipt) :
    ∃ size,∃ view : ByteView,(stripTypeByte item).bytes = listHeader size ++ view.bytes ∧ size ≤ view.bytes.length ∧
      ∃ payload gas after,view.bytes = encodeString payload ++ (gas ++ (fixedWire receipt.bloom ++ after)) ∧
        statusOf payload = .ok (receipt.stateRoot,receipt.status) ∧ UnsignedForm gas receipt.cumulativeGasUsed := by
  obtain ⟨⟨size,view⟩,headed,ran⟩ := bind_ok.mp decoded
  obtain ⟨⟨_,rest⟩,read,same⟩ := bind_ok.mp ran
  cases same
  obtain ⟨header,room⟩ := (readListHeaderBytes_exact ..).mp headed
  exact ⟨size,view,header,room,receiptFields_parts read⟩

theorem listHeader_high (same : first :: more = listHeader size ++ back) (small : size < sizeLimit) : 0xC0 ≤ first := by
  obtain ⟨byte,others,leading,above,_⟩ := header_first 0xC0 0xF7 small (by decide) (by decide)
  rw [listHeader,leading] at same
  cases (List.cons.inj same).1
  exact UInt8.le_iff_toNat_le.mpr above

theorem listHeader_narrow (same : BigEndian.minimal bytes.length ++ bytes = listHeader size ++ back)
    (room : size ≤ back.length) (few : bytes.length < 256 ^ width) : (listHeader size).length ≤ width + 2 := by
  have whole := congrArg List.length same
  have digits := BigEndian.byteLength_le few
  have longer : width < 256 ^ width := Nat.lt_pow_self (by decide)
  rw [List.length_append,List.length_append,BigEndian.minimal_length] at whole
  apply listHeader_short
  rw [Nat.pow_succ]
  omega

theorem typed_not_returned {type : EnvelopeType}
    (single : receipt.stateRoot.isSome ≠ receipt.status.isSome) (written : receiptWire receipt = some legacy)
    (reach : WithinReach (type.val :: legacy)) (spelled : item.bytes = encodeString (type.val :: legacy)) :
    decodeReceipt item ≠ .ok receipt := by
  intro decoded
  obtain ⟨content,joined,rfl⟩ := Option.map_eq_some_iff.mp written
  obtain ⟨head,leads,rest⟩ := Option.bind_eq_some_iff.mp joined
  cases rest
  have large : 256 ≤ (head ++ receiptTailWire receipt).length := by
    have width := receipt.bloom.toList_length
    simp only [receiptTailWire,fixedWire_bloom,List.length_append]
    omega
  generalize envelope : type.val :: encodeList (head ++ receiptTailWire receipt) = bytes at *
  have longer : 256 ≤ bytes.length := by
    rw [← envelope,List.length_cons,encodeList,List.length_append]
    omega
  obtain ⟨size,view,header,room,payload,gas,after,fields,found,formed⟩ := decodeReceipt_parts decoded
  rw [envelope_stripped (by omega) spelled] at header
  -- The first length byte is read as the first byte of a list.
  obtain ⟨first,digits,lead⟩ := List.exists_cons_of_ne_nil (List.length_pos_iff.mp (show 0 < (BigEndian.minimal bytes.length).length by
    rw [BigEndian.minimal_length]
    exact BigEndian.byteLength_pos (by omega)))
  have high : 0xC0 ≤ first := listHeader_high (lead ▸ header) (Nat.lt_of_le_of_lt room view.fits)
  rcases reach with few | low
  · subst envelope
    obtain ⟨width,wide,small,length,starts⟩ := envelope_start large few lead high
    have narrow := listHeader_narrow header room small
    have text : listHeader size ++ view.bytes = (first :: digits ++ type.val :: listHeader (head ++ receiptTailWire receipt).length) ++
        (head ++ receiptTailWire receipt) := by
      rw [← header,lead]
      simp [encodeList,List.append_assoc]
    rw [fields] at text
    obtain ⟨first,next,rest,place,start,other,some,alone,above,below,early⟩ :=
      fields_early single leads found formed (show 0 < (listHeader size).length from header_pos _ _ _) (by omega) text
    exact starts.no_bloom type.property.2 other some alone above below early
  · exact absurd high (UInt8.not_le.mpr (low first digits lead))

theorem listForm_pieces {values : StdVector α}
    (items : ∀ item bytes,wire item = some bytes → IsItem bytes) (whole : ∀ bytes value,form bytes value → IsItem bytes)
    (written : Wire.list (Wire.each wire values.items) = some piece) (formed : ListForm form piece (values.map normal))
    (small : piece.length < sizeLimit) :
    ∀ item ∈ values.items,∃ bytes,wire item = some bytes ∧ form bytes (normal item) ∧ bytes.length < sizeLimit := by
  obtain ⟨payload,each,rfl⟩ := Option.map_eq_some_iff.mp written
  obtain ⟨pieces,all,rfl⟩ := (Wire.each_pieces ..).mp each
  obtain ⟨others,forms,same⟩ := formed
  have fits := encodeList_shorter small
  have own : ∀ bytes ∈ pieces,IsItem bytes := by
    have flipped := List.Forall₂.flip all
    exact pieces_all (fun bytes item => items item bytes) flipped
  have equal := items_same own (pieces_all whole forms) (encodeList_same same small) fits
  subst equal
  have forms := List.forall₂_map_right_iff.mp forms
  have short (bytes : List UInt8) (member : bytes ∈ pieces) : bytes.length < sizeLimit :=
    Nat.lt_of_le_of_lt (List.sublist_flatten_of_mem member).length_le fits
  have sized := (List.forall₂_and_left pieces values.items).mpr ⟨short,forms⟩
  have both : List.Forall₂ (fun item bytes => wire item = some bytes ∧ form bytes (normal item) ∧ bytes.length < sizeLimit)
      values.items pieces :=
    List.Forall₂.mp (fun item bytes one other => ⟨one,other.2,other.1⟩) all sized.flip
  exact pieces_all (fun item bytes one => ⟨bytes,one⟩) both

theorem sentWire_item (sent : SentReceipt) (bytes : List UInt8) (written : sentWire sent = some bytes) : IsItem bytes := by
  unfold sentWire at written
  split at written
  · obtain ⟨payload,_,rfl⟩ := Option.map_eq_some_iff.mp written
    exact .list payload
  · obtain ⟨legacy,_,rfl⟩ := Option.map_eq_some_iff.mp written
    exact .string _

def AllLegacy (blocks : StdVector (StdVector SentReceipt)) : Prop :=
  ∀ block ∈ blocks.items,∀ sent ∈ block.items,sent.envelope = none

def AllWithinReach (blocks : StdVector (StdVector SentReceipt)) : Prop :=
  ∀ block ∈ blocks.items,∀ sent ∈ block.items,∀ type legacy,sent.envelope = some type → receiptWire sent.receipt = some legacy →
    WithinReach (type.val :: legacy)

-- Receipts come back if all of them were sent as lists; a typed one, as far as
-- the lengths go for which this is proved, never does.
theorem typed_receipts_returned_iff (requestId : BitVec 64) (blocks : StdVector (StdVector SentReceipt)) (v : ByteView)
    (written : requestWire sentBlocksWire ⟨some requestId,blocks⟩ = some v.bytes) :
    (AllLegacy blocks → decodeReceipts v = .ok ⟨some requestId,sentReceipts blocks⟩) ∧
    (AllWithinReach blocks → (decodeReceipts v = .ok ⟨some requestId,sentReceipts blocks⟩ ↔ AllLegacy blocks)) := by
  have sufficient (legacy : AllLegacy blocks) : decodeReceipts v = .ok ⟨some requestId,sentReceipts blocks⟩ := by
    refine request_read receipts_exact (fun _ _ formed => formed.list) ?_ written
    refine Formed.list blocks fun block member => Formed.list block fun sent inside => ?_
    have formed := receipt_formed sent.single
    unfold sentWire
    rw [legacy block member sent inside]
    exact formed
  refine ⟨sufficient,?_⟩
  intro reach
  refine ⟨?_,sufficient⟩
  intro decoded block member sent inside
  obtain ⟨payload,joined,spelled⟩ := Option.map_eq_some_iff.mp written
  obtain ⟨content,listed,same⟩ := Option.map_eq_some_iff.mp joined
  subst same
  obtain ⟨size,found,headed,room,id,piece,rfl,identified,formed⟩ :=
    (request_exact receipts_exact (fun _ _ formed => formed.list) v _).mp decoded
  have fits := v.fits
  rw [← spelled] at fits
  have small := encodeList_shorter fits
  have cut := framed_payload (spelled.symm.trans (List.append_nil _).symm) headed room
  rw [List.append_nil] at cut
  have scalar : IdForm (encodeScalar requestId.toNat) (some requestId) := Or.inl rfl
  have equal := idForm_same scalar identified cut.symm small
  subst equal
  obtain ⟨bytes,wired,blockForm,shorter⟩ := listForm_pieces
    (fun block bytes wired => by obtain ⟨payload,_,rfl⟩ := Option.map_eq_some_iff.mp wired; exact .list payload)
    (fun _ _ formed => formed.item) listed formed (back_fits small) block member
  obtain ⟨item,itemWired,⟨_,view,rfl,read⟩,_⟩ := listForm_pieces sentWire_item (fun _ _ formed => formed.1) wired blockForm shorter sent inside
  cases typed : sent.envelope with
  | none => rfl
  | some type =>
    unfold sentWire at itemWired
    rw [typed] at itemWired
    obtain ⟨legacy,receipt,around⟩ := Option.map_eq_some_iff.mp itemWired
    exact absurd read (typed_not_returned sent.single receipt (reach block member sent inside type legacy typed receipt) around.symm)

def plainReceipt (envelope : Option EnvelopeType) : StdVector (StdVector SentReceipt) :=
  .singleton (.singleton ⟨.withStatus true .empty,envelope,by decide⟩)

def legacyMessage : ByteView := ⟨(requestWire sentBlocksWire ⟨some 7,plainReceipt none⟩).getD [],by decide +kernel⟩

theorem legacy_receipt_returned :
    decodeReceipts legacyMessage = .ok ⟨some 7,.singleton (.singleton (.withStatus true .empty))⟩ :=
  (typed_receipts_returned_iff 7 (plainReceipt none) legacyMessage (by decide +kernel)).1 (by unfold AllLegacy; decide)

def typedMessage : ByteView :=
  ⟨(requestWire sentBlocksWire ⟨some 7,plainReceipt (some ⟨0x02,by decide⟩)⟩).getD [],by decide +kernel⟩

theorem typed_receipt_not_read : requestWire sentBlocksWire ⟨some 7,plainReceipt (some ⟨0x02,by decide⟩)⟩ = some typedMessage.bytes ∧
    decodeReceipts typedMessage = .error .kUnexpectedString := by
  decide +kernel

end EvmRelay.Eth
