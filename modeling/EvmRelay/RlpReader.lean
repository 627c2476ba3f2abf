import EvmRelay.Reading
import EvmRelay.RlpInteger

namespace EvmRelay.Rlp
open RlpSpec Reader

instance : Input ByteView UInt8 := ⟨ByteView.bytes,ByteView.ext_bytes,ByteView.exists_behind⟩

@[simp] theorem symbols_bytes (v : ByteView) : Input.symbols v = v.bytes := rfl

-- RlpDecoder, with its remaining view as the state.
abbrev Decoder (α : Type) := Reader ByteView DecodingError α

-- if (!decoder.read(x)) { return error; }
def orError (read : Decoder α) (error : DecodingError) : Decoder α := fun v =>
  match read v with
  | .ok found => .ok found
  | .error _ => .error error

-- read into a std::array. A literal byte passes for an array of one.
def readFixed (count : Nat) : Decoder (FixedBytes count) := fun v => do
  let h ← peekHeader v
  let singleByteLiteral : Prop := h.payloadSizeBytes = 1 ∧ h.headerSizeBytes = 0
  if h.list then .error .kUnexpectedList
  else if h.payloadSizeBytes ≠ count ∧ ¬ (count = 1 ∧ singleByteLiteral) then .error .kUnexpectedLength
  else
    let view ← skipHeaderInternal v
    if enough : count ≤ view.length then
      .ok (⟨view.bytes.take count,by rw [List.length_take]; exact Nat.min_eq_left enough⟩,view.removePrefix count)
    else .error .kInputTooShort

def readBool : Decoder Bool := fun v => do
  let h ← peekHeader v
  let payloadView := v.substr h.headerSizeBytes h.payloadSizeBytes
  let view := v.removePrefix (sizeAdd h.headerSizeBytes h.payloadSizeBytes)
  if h.list then .error .kUnexpectedList
  else if v.length < sizeAdd h.headerSizeBytes h.payloadSizeBytes then .error .kInputTooShort
  else if h.payloadSizeBytes = 1 then
    if payloadView.bytes.headD 0 = 1 then .ok (true,view)
    else if payloadView.bytes.headD 0 = 0 then .ok (false,view)
    else .error .kOverflow
  else if h.payloadSizeBytes = 0 ∧ h.headerSizeBytes = 1 ∧ v.bytes.headD 0 = kEmptyStringCode then .ok (false,view)
  else .error .kOverflow

def readUint64 : Decoder (BitVec 64) := readUnsigned (.integral .uint64)

def readWord : Decoder (BitVec 256) := readUnsigned .uint256

theorem readBytes_fits (read : readBytes v = .ok (bytes,rest)) : bytes.length < sizeLimit := by
  have fits := v.fits
  have taken := encodeString_length bytes
  rw [readBytes_sound read,List.length_append] at fits
  omega

def readByteBuffer : Decoder (StdVector UInt8) := fun v =>
  match read : readBytes v with
  | .error error => .error error
  | .ok (bytes,rest) => .ok (⟨bytes,readBytes_fits read⟩,rest)

def consumeNextItem : Decoder ByteView := fun v =>
  if v.bytes = [] then .error .kInputTooShort
  else do
    let after ← skipItem v
    return (v.substr 0 (sizeSub v.length after.length),after)

-- ReadListHeaderBytes, the position its payload ends at, and the test that the
-- body stopped there.
def readList (body : Nat → Decoder α) : Decoder α := do
  let payloadSize ← (readListHeaderBytes : Decoder Nat)
  let targetRemaining := sizeSub (← get).length payloadSize
  let value ← body targetRemaining
  if (← get).length ≠ targetRemaining then throw .kListLengthMismatch
  else return value

-- while (decoder.Remaining().size() > target) { vector.push_back(read()); }
def readItems (read : Decoder α) (targetRemaining : Nat) : Decoder (StdVector α) := fun v =>
  match ran : readAbove .kListLengthMismatch read targetRemaining v.length v with
  | .error error => .error error
  | .ok (items,rest) => .ok (⟨items,Nat.lt_of_le_of_lt (readAbove_length ran) v.length_lt⟩,rest)

def readListOf (read : Decoder α) : Decoder (StdVector α) := readList (readItems read)

theorem orError_ok {read : Decoder α} : orError read error v = .ok (value,rest) ↔ read v = .ok (value,rest) := by
  unfold orError
  cases read v with
  | ok found => rfl
  | error other => simp

theorem orError_reads (error : DecodingError) {read : Decoder α}
    (reads : Reads read taken value) : Reads (orError read error) taken value :=
  fun v rest spelled => orError_ok.mpr (reads v rest spelled)

theorem orError_exact (error : DecodingError) {read : Decoder α} (exact_ : Exact read form) :
    Exact (orError read error) form := by
  intro v value rest
  rw [orError_ok]
  exact exact_ v value rest

theorem readFixed_string (count : Nat) (spelled : v.bytes = encodeString payload ++ rest.bytes) : readFixed count v =
      if same : payload.length = count then .ok (⟨payload,same⟩,rest) else .error .kUnexpectedLength := by
  obtain ⟨offset,announced,behind,_⟩ := encodeString_announced payload rest.bytes
  rw [← spelled] at announced behind
  have view : (v.removePrefix offset).bytes = payload ++ rest.bytes := behind
  unfold readFixed
  rw [(peekHeader_exact v _).mpr announced,ok_bind]
  rw [if_neg Bool.false_ne_true,skipHeaderInternal_exact announced,ok_bind]
  by_cases same : payload.length = count
  · have enough : count ≤ (v.removePrefix offset).length := by
      rw [ByteView.length,view,List.length_append]
      omega
    rw [if_neg (fun wrong => wrong.1 same),dif_pos enough,dif_pos same]
    subst same
    congr 2
    · apply Subtype.ext
      show (v.removePrefix offset).bytes.take payload.length = payload
      rw [view,List.take_left]
    · apply ByteView.ext_bytes
      rw [ByteView.removePrefix_bytes,view,List.drop_left]
  · rw [if_pos ⟨same,fun literal => same (literal.2.1.trans literal.1.symm)⟩,dif_neg same]

theorem string_exact {read : Decoder α} {taken : List UInt8 → Except DecodingError α}
    (strings : ∀ v found,read v = .ok found → ∃ h,peekHeader v = .ok h ∧ h.list = false)
    (string : ∀ v rest payload,v.bytes = encodeString payload ++ rest.bytes → read v = (taken payload).map fun value => (value,rest)) :
    Exact read fun piece value => ∃ payload,piece = encodeString payload ∧ taken payload = .ok value := by
  intro v value rest
  constructor
  · intro ran
    obtain ⟨h,peeked,kind⟩ := strings v _ ran
    obtain ⟨payload,left,spelled⟩ := peeked_string peeked kind
    rw [string v left payload spelled] at ran
    cases told : taken payload with
    | error error =>
      rw [told] at ran
      cases ran
    | ok found =>
      rw [told] at ran
      cases ran
      exact ⟨_,spelled,payload,rfl,told⟩
  · rintro ⟨_,spelled,payload,rfl,told⟩
    rw [string v rest payload spelled,told]
    rfl

theorem readFixed_exact (count : Nat) : Exact (readFixed count) fun piece value => piece = encodeString value.toList := by
  have exact_ : Exact (readFixed count) fun piece value => ∃ payload,piece = encodeString payload ∧
      (if same : payload.length = count then .ok ⟨payload,same⟩ else .error DecodingError.kUnexpectedLength) = Except.ok value := by
    apply string_exact
    · intro v found ran
      obtain ⟨h,peeked,checked⟩ := bind_ok.mp ran
      cases kind : h.list with
      | true => simp [kind] at checked
      | false => exact ⟨h,peeked,kind⟩
    · intro v rest payload spelled
      rw [readFixed_string count spelled]
      split <;> rfl
  apply exact_.of_iff
  intro piece value
  constructor
  · rintro ⟨payload,rfl,told⟩
    split at told
    · cases told
      rfl
    · cases told
  · intro same
    exact ⟨_,same,dif_pos value.toList_length⟩

-- What read(bool) takes for a value: zero has two spellings.
def BoolForm (piece : List UInt8) (value : Bool) : Prop :=
  (value = true ∧ piece = encodeString [1]) ∨ (value = false ∧ (piece = encodeString [] ∨ piece = encodeString [0]))

theorem BoolForm.string (formed : BoolForm piece value) : ∃ payload,piece = encodeString payload := by
  rcases formed with ⟨_,rfl⟩ | ⟨_,rfl | rfl⟩ <;> exact ⟨_,rfl⟩

def boolOf (payload : List UInt8) : Except DecodingError Bool :=
  if payload = [1] then .ok true else if payload = [] ∨ payload = [0] then .ok false else .error .kOverflow

theorem readBool_string (v rest : ByteView) (payload : List UInt8) (spelled : v.bytes = encodeString payload ++ rest.bytes) :
    readBool v = (boolOf payload).map fun value => (value,rest) := by
  obtain ⟨offset,peeked,cut,behind,room,headed⟩ := string_layout spelled
  unfold readBool boolOf
  rw [peeked,ok_bind]
  dsimp only
  rw [cut,behind,if_neg room]
  cases payload with
  | nil =>
    have spelled : v.bytes = 0x80 :: rest.bytes := spelled
    have empty : peekHeader v = .ok ⟨false,0,1⟩ := by
      rw [peekHeader_exact,spelled]
      exact .string (Nat.zero_le _) (by simp)
    rw [peeked] at empty
    cases empty
    simp [spelled,Except.map]
  | cons byte more =>
    cases more with
    | nil => by_cases one : byte = 1 <;> by_cases zero : byte = 0 <;> simp [one,zero,Except.map]
    | cons next more => simp [Except.map]

theorem readBool_exact : Exact readBool BoolForm := by
  have exact_ : Exact readBool fun piece value => ∃ payload,piece = encodeString payload ∧ boolOf payload = .ok value := by
    refine string_exact ?_ readBool_string
    intro v found ran
    obtain ⟨h,peeked,checked⟩ := bind_ok.mp ran
    cases kind : h.list with
    | true => simp [kind] at checked
    | false => exact ⟨h,peeked,kind⟩
  apply exact_.of_iff
  intro piece value
  constructor
  · rintro ⟨payload,rfl,told⟩
    unfold boolOf at told
    split at told
    · rename_i one
      cases told
      exact Or.inl ⟨rfl,congrArg encodeString one⟩
    · split at told
      · rename_i zero
        cases told
        exact Or.inr ⟨rfl,zero.imp (congrArg encodeString) (congrArg encodeString)⟩
      · cases told
  · intro formed
    rcases formed with ⟨rfl,rfl⟩ | ⟨rfl,rfl | rfl⟩ <;> exact ⟨_,rfl,rfl⟩

def UnsignedForm (piece : List UInt8) (value : BitVec width) : Prop :=
  piece = encodeScalar value.toNat ∨ (piece = encodeString [0] ∧ value = 0)

theorem UnsignedForm.string (formed : UnsignedForm piece value) :
    ∃ payload,piece = encodeString payload ∧ payload.length ≤ max 1 (BigEndian.byteLength value.toNat) := by
  rcases formed with rfl | ⟨rfl,_⟩
  · exact ⟨_,rfl,by rw [BigEndian.minimal_length]; omega⟩
  · exact ⟨[0],rfl,by simp⟩

theorem readUnsigned_form (t : UnsignedType) : Exact (readUnsigned t : Decoder (BitVec (8 * t.sizeof))) UnsignedForm := by
  intro v value rest
  rw [readUnsigned_exact]
  refine ⟨?_,?_⟩
  · intro spelled
    rcases spelled with shortest | ⟨single,zero⟩
    · exact ⟨_,shortest,Or.inl rfl⟩
    · exact ⟨_,single,Or.inr ⟨rfl,zero⟩⟩
  · rintro ⟨_,spelled,rfl | ⟨rfl,zero⟩⟩
    · exact Or.inl spelled
    · exact Or.inr ⟨spelled,zero⟩

theorem readUint64_exact : Exact readUint64 UnsignedForm := readUnsigned_form (.integral .uint64)

theorem readWord_exact : Exact readWord UnsignedForm := readUnsigned_form .uint256

theorem readByteBuffer_exact : Exact readByteBuffer fun piece value => piece = encodeString value.items := by
  intro v value rest
  have bytes : readByteBuffer v = .ok (value,rest) ↔ readBytes v = .ok (value.items,rest) := by
    unfold readByteBuffer
    split
    · rename_i error failed
      rw [failed]
      simp
    rename_i bytes left read
    refine ⟨?_,?_⟩
    · intro same
      cases same
      exact read
    · intro same
      cases read.symm.trans same
      rfl
  rw [bytes,readBytes_exact]
  simp [Input.symbols]

theorem readFixed_reads (value : FixedBytes count) : Reads (readFixed count) (encodeString value.toList) value :=
  (readFixed_exact count).reads rfl

theorem readUint64_reads (value : BitVec 64) : Reads readUint64 (encodeScalar value.toNat) value :=
  readUint64_exact.reads (Or.inl rfl)

theorem readWord_reads (value : BitVec 256) : Reads readWord (encodeScalar value.toNat) value :=
  readWord_exact.reads (Or.inl rfl)

theorem readByteBuffer_reads (value : StdVector UInt8) : Reads readByteBuffer (encodeString value.items) value :=
  readByteBuffer_exact.reads rfl

inductive IsItem : List UInt8 → Prop where
  | string (payload : List UInt8) : IsItem (encodeString payload)
  | list (payload : List UInt8) : IsItem (encodeList payload)

theorem IsItem.pos (item : IsItem bytes) : 0 < bytes.length := by
  cases item with
  | string payload => exact encodeString_pos ..
  | list payload =>
    have positive := header_pos 0xC0 0xF7 payload.length
    rw [encodeList,List.length_append]
    exact Nat.lt_of_lt_of_le positive (Nat.le_add_right _ _)

theorem IsItem.nonempty (item : IsItem bytes) : bytes ≠ [] := List.length_pos_iff.mp item.pos

theorem IsItem.unfinished (item : IsItem piece) (spelled : v.bytes = piece ++ rest) : ¬ isFinished v = true := by
  rw [isFinished_iff,spelled]
  exact List.append_ne_nil_of_left_ne_nil item.nonempty _

theorem Announces.item (announced : Announces bytes h) : IsItem (bytes.take (h.headerSizeBytes + h.payloadSizeBytes)) := by
  obtain ⟨list,size,offset⟩ := h
  cases list with
  | false =>
    have cut : bytes.take (offset + size) ++ bytes.drop (offset + size) =
        encodeString ((bytes.drop offset).take size) ++ bytes.drop (offset + size) := by
      rw [List.take_append_drop]
      exact announced.spelled
    rw [List.append_cancel_right cut]
    exact .string _
  | true =>
    cases announced with
    | @list size tail room =>
      have width : (tail.take size).length = size := by rw [List.length_take]; omega
      have cut : (listHeader size ++ tail).take ((listHeader size).length + size) = encodeList (tail.take size) := by
        rw [encodeList,width,List.take_length_add_append]
      rw [cut]
      exact .list _

theorem IsItem.announced (item : IsItem bytes) (rest : List UInt8) :
    ∃ h,Announces (bytes ++ rest) h ∧ h.headerSizeBytes + h.payloadSizeBytes = bytes.length := by
  cases item with
  | string payload =>
    obtain ⟨offset,announced,behind,_⟩ := encodeString_announced ..
    refine ⟨_,announced,?_⟩
    have room := announced.room
    have sizes := congrArg List.length behind
    simp only [List.length_drop,List.length_append] at sizes room ⊢
    omega
  | list payload =>
    refine ⟨⟨true,payload.length,(listHeader payload.length).length⟩,?_,?_⟩
    · rw [encodeList,List.append_assoc]
      exact .list (by simp)
    · rw [encodeList,List.length_append]

theorem peekHeader_encodeList (spelled : v.bytes = encodeList payload ++ rest) :
    peekHeader v = .ok ⟨true,payload.length,(listHeader payload.length).length⟩ := by
  rw [encodeList,List.append_assoc] at spelled
  exact (peekHeader_list ..).mpr ⟨_,spelled,rfl,by simp⟩

theorem consumeNextItem_exact : Exact consumeNextItem fun piece item => piece = item.bytes ∧ IsItem piece := by
  intro v item rest
  have fits := v.length_lt
  have skipped {h : Header} (announced : Announces v.bytes h) : consumeNextItem v =
      .ok (v.substr 0 (h.headerSizeBytes + h.payloadSizeBytes),v.removePrefix (h.headerSizeBytes + h.payloadSizeBytes)) := by
    have room : h.headerSizeBytes + h.payloadSizeBytes ≤ v.length := announced.room
    have some : v.bytes ≠ [] := by
      intro none
      have positive := announced.item.pos
      simp [none] at positive
    unfold consumeNextItem
    rw [if_neg some,skipItem_announced announced,ok_bind,ByteView.removePrefix_length,
      sizeSub_small (Nat.sub_le _ _) fits,Nat.sub_sub_self room]
    rfl
  refine ⟨?_,?_⟩
  · intro ran
    have read := ran
    unfold consumeNextItem at read
    split_ifs at read
    obtain ⟨after,skip,_⟩ := bind_ok.mp read
    obtain ⟨h,peeked,_⟩ := bind_ok.mp skip
    have announced := (peekHeader_exact v h).mp peeked
    rw [skipped announced] at ran
    cases ran
    exact ⟨_,(List.take_append_drop _ _).symm,rfl,announced.item⟩
  · rintro ⟨_,spelled,rfl,whole⟩
    have spelled : v.bytes = item.bytes ++ rest.bytes := spelled
    obtain ⟨h,announced,width⟩ := whole.announced rest.bytes
    rw [← spelled] at announced
    rw [skipped announced,width]
    congr 2
    · apply ByteView.ext_bytes
      rw [ByteView.substr_bytes,spelled,List.drop_zero,List.take_left]
    · apply ByteView.ext_bytes
      rw [ByteView.removePrefix_bytes,spelled,List.drop_left]

def readItemWith (decode : ByteView → Except DecodingError α) : Decoder α := do
  let item ← consumeNextItem
  liftM (decode item)

def ObjectForm (decode : ByteView → Except DecodingError α) (piece : List UInt8) (value : α) : Prop :=
  IsItem piece ∧ ∃ item : ByteView,item.bytes = piece ∧ decode item = .ok value

theorem readItemWith_exact (decode : ByteView → Except DecodingError α) : Exact (readItemWith decode) (ObjectForm decode) := by
  intro v value rest
  unfold readItemWith
  rw [bind_ok_iff]
  constructor
  · rintro ⟨item,view,one,two⟩
    obtain ⟨_,spelled,rfl,whole⟩ := (consumeNextItem_exact v item view).mp one
    obtain ⟨found,decoded,same⟩ := bind_ok.mp two
    cases same
    exact ⟨_,spelled,whole,item,rfl,decoded⟩
  · rintro ⟨_,spelled,whole,item,rfl,decoded⟩
    exact ⟨item,rest,consumeNextItem_exact.reads ⟨rfl,whole⟩ v rest spelled,bind_ok.mpr ⟨value,decoded,rfl⟩⟩

theorem ObjectForm.nonempty (formed : ObjectForm decode piece value) : piece ≠ [] := formed.1.nonempty

theorem forms_same {read : Decoder α} (exact_ : Exact read form) (value found : α)
    (formed : form one value) (alike : form two found) (spelled : one ++ back = two ++ rest)
    (small : (one ++ back).length < sizeLimit) : one = two ∧ back = rest := by
  have room : (two ++ rest).length < sizeLimit := spelled ▸ small
  let v : ByteView := ⟨one ++ back,small⟩
  have left : v.bytes = one ++ ByteView.bytes ⟨back,back_fits small⟩ := rfl
  have right : v.bytes = two ++ ByteView.bytes ⟨rest,back_fits room⟩ := spelled
  obtain ⟨same,_,behind⟩ := exact_.same left formed right alike
  exact ⟨same,congrArg ByteView.bytes behind⟩

theorem IsItem.same (first : IsItem one) (second : IsItem two) (spelled : one ++ back = two ++ rest)
    (small : (one ++ back).length < sizeLimit) : one = two ∧ back = rest := by
  have room : (two ++ rest).length < sizeLimit := spelled ▸ small
  exact forms_same consumeNextItem_exact ⟨one,front_fits small⟩ ⟨two,front_fits room⟩ ⟨rfl,first⟩ ⟨rfl,second⟩ spelled small

theorem string_not_list {v : ByteView} (string : v.bytes = encodeString payload ++ rest) (list : v.bytes = encodeList other ++ more) :
    False := by
  obtain ⟨left,behind⟩ := ByteView.exists_behind string
  obtain ⟨offset,peeked,_⟩ := string_layout (behind ▸ string)
  cases peeked.symm.trans (peekHeader_encodeList list)

theorem encodeString_same (same : encodeString payload ++ back = encodeString other ++ rest)
    (small : (encodeString payload ++ back).length < sizeLimit) : payload = other ∧ back = rest := by
  have smaller : (encodeString other ++ rest).length < sizeLimit := same ▸ small
  have left := (readBytes_exact ⟨_,small⟩ payload ⟨back,back_fits small⟩).mpr rfl
  have right := (readBytes_exact ⟨_,small⟩ other ⟨rest,back_fits smaller⟩).mpr same
  cases left.symm.trans right
  exact ⟨rfl,rfl⟩

theorem listHeader_same (same : listHeader size ++ back = listHeader other ++ rest) (room : size ≤ back.length)
    (fits : other ≤ rest.length) (small : (listHeader size ++ back).length < sizeLimit) : size = other ∧ back = rest := by
  have smaller : (listHeader other ++ rest).length < sizeLimit := same ▸ small
  have left := (readListHeaderBytes_exact ⟨_,small⟩ size ⟨back,back_fits small⟩).mpr ⟨rfl,room⟩
  have right := (readListHeaderBytes_exact ⟨_,small⟩ other ⟨rest,back_fits smaller⟩).mpr ⟨same,fits⟩
  cases left.symm.trans right
  exact ⟨rfl,rfl⟩

theorem encodeList_same (same : encodeList payload = encodeList other) (small : (encodeList payload).length < sizeLimit) :
    payload = other :=
  (listHeader_same same (Nat.le_refl _) (Nat.le_refl _) small).2

theorem encodeList_other : payload ≠ encodeList payload := by
  intro same
  have positive := header_pos 0xC0 0xF7 payload.length
  have longer := congrArg List.length same
  rw [encodeList,List.length_append,listHeader] at longer
  omega

theorem encodeList_shorter (small : (encodeList payload).length < sizeLimit) : payload.length < sizeLimit := back_fits small

theorem item_not_followed (item : IsItem piece) (first : IsItem front) (same : piece = front ++ back) (more : back ≠ [])
    (small : piece.length < sizeLimit) : False := by
  have cut := (List.append_nil piece).trans same
  exact more ((item.same first cut (by rwa [List.append_nil])).2.symm)

theorem items_same {pieces others : List (List UInt8)} (all : ∀ piece ∈ pieces,IsItem piece)
    (each : ∀ piece ∈ others,IsItem piece) (same : pieces.flatten = others.flatten)
    (small : pieces.flatten.length < sizeLimit) : pieces = others := by
  induction pieces generalizing others with
  | nil =>
    cases others with
    | nil => rfl
    | cons other more => exact absurd (List.append_eq_nil_iff.mp same.symm).1 (each other List.mem_cons_self).nonempty
  | cons piece rest ih =>
    cases others with
    | nil => exact absurd (List.append_eq_nil_iff.mp same).1 (all piece List.mem_cons_self).nonempty
    | cons other more =>
      obtain ⟨rfl,behind⟩ := (all piece List.mem_cons_self).same (each other List.mem_cons_self) same small
      rw [ih (fun piece member => all piece (List.mem_cons_of_mem _ member))
        (fun piece member => each piece (List.mem_cons_of_mem _ member)) behind (back_fits small)]

section lists
variable {body : Nat → Decoder α}

theorem encodeList_opens (spelled : v.bytes = encodeList payload ++ rest) :
    ∃ view,readListHeaderBytes v = .ok (payload.length,view) ∧ view.bytes = payload ++ rest :=
  listHeader_reads (spelled.trans (List.append_assoc ..)) (by simp)

theorem readList_complete (opened : readListHeaderBytes v = .ok (payload.length,view)) (behind : view.bytes = payload ++ rest.bytes)
    (ran : body rest.length view = .ok (value,rest)) : readList body v = .ok (value,rest) := by
  have fits := view.length_lt
  have size : view.length = payload.length + rest.length := by rw [ByteView.length,behind,List.length_append]; rfl
  have target : sizeSub view.length payload.length = rest.length := by
    rw [sizeSub_small (by omega) fits]
    omega
  refine bind_ok_iff.mpr ⟨payload.length,view,opened,bind_ok_iff.mpr ⟨view,view,rfl,?_⟩⟩
  rw [target]
  refine bind_ok_iff.mpr ⟨value,rest,ran,bind_ok_iff.mpr ⟨rest,rest,rfl,?_⟩⟩
  rw [if_neg (by simp)]
  rfl

theorem readList_ran (ran : readList body v = .ok (value,rest)) :
    ∃ size view,readListHeaderBytes v = .ok (size,view) ∧ body (sizeSub view.length size) view = .ok (value,rest) ∧
      rest.length = sizeSub view.length size := by
  obtain ⟨size,view,headed,ran⟩ := bind_ok_iff.mp ran
  obtain ⟨_,_,got,ran⟩ := bind_ok_iff.mp ran
  cases got
  obtain ⟨found,left,read,ran⟩ := bind_ok_iff.mp ran
  obtain ⟨_,_,got,ran⟩ := bind_ok_iff.mp ran
  cases got
  split_ifs at ran with stopped
  · cases ran
  · cases ran
    exact ⟨size,view,headed,read,Decidable.not_not.mp stopped⟩

theorem readList_sound (suffix : ∀ target v value rest,body target v = .ok (value,rest) →
      ∃ taken,v.bytes = taken ++ rest.bytes) (ran : readList body v = .ok (value,rest)) :
    ∃ payload view,v.bytes = encodeList payload ++ rest.bytes ∧ view.bytes = payload ++ rest.bytes ∧
      body rest.length view = .ok (value,rest) := by
  obtain ⟨size,view,headed,read,stopped⟩ := readList_ran ran
  obtain ⟨spelled,room⟩ := (readListHeaderBytes_exact ..).mp headed
  obtain ⟨taken,behind⟩ := suffix _ _ _ _ read
  have total : view.length = taken.length + rest.length := by rw [ByteView.length,behind,List.length_append]; rfl
  rw [sizeSub_small room view.length_lt] at stopped read
  have width : taken.length = size := by omega
  rw [← stopped] at read
  refine ⟨taken,view,?_,behind,read⟩
  rw [spelled,behind,encodeList,width,List.append_assoc]

theorem readList_reads {read : Decoder α} (reads : Reads read payload value) :
    Reads (readList fun _ => read) (encodeList payload) value := by
  intro v rest spelled
  obtain ⟨view,opened,behind⟩ := encodeList_opens spelled
  exact readList_complete opened behind (reads view rest behind)

theorem encodeList_pos (payload : List UInt8) : 0 < (encodeList payload).length := (IsItem.list payload).pos

theorem readItems_exact {read : Decoder α} : readItems read target v = .ok (values,rest) ↔
      readAbove .kListLengthMismatch read target v.length v = .ok (values.items,rest) := by
  unfold readItems
  split
  · rename_i error failed
    rw [failed]
    simp
  rename_i items left ran
  refine ⟨?_,?_⟩
  · intro same
    cases same
    exact ran
  · intro same
    cases ran.symm.trans same
    rfl

theorem pieces_le_flatten {pieces : List (List UInt8)} (some : ∀ piece ∈ pieces,piece ≠ []) :
    pieces.length ≤ pieces.flatten.length := by
  induction pieces with
  | nil => simp
  | cons piece rest ih =>
    have positive := List.length_pos_iff.mpr (some piece List.mem_cons_self)
    have later := ih fun piece member => some piece (List.mem_cons_of_mem _ member)
    simp only [List.length_cons,List.flatten_cons,List.length_append]
    omega

theorem items_le_flatten {pieces : List (List UInt8)} (items : ∀ piece ∈ pieces,IsItem piece) : pieces.length ≤ pieces.flatten.length :=
  pieces_le_flatten fun piece member => (items piece member).nonempty

theorem readListOf_reads {read : Decoder α}
    (reads : List.Forall₂ (Reads read) pieces values.items) (some : ∀ piece ∈ pieces,piece ≠ []) :
    Reads (readListOf read) (encodeList pieces.flatten) values := by
  intro v rest spelled
  obtain ⟨view,opened,behind⟩ := encodeList_opens spelled
  have few : pieces.length ≤ view.length := by
    have bound := pieces_le_flatten some
    rw [ByteView.length,behind,List.length_append]
    omega
  exact readList_complete opened behind (readItems_exact.mpr (readAbove_reads reads some few behind rfl))

def ListForm (form : List UInt8 → α → Prop) (piece : List UInt8) (values : StdVector α) : Prop :=
  ∃ pieces,List.Forall₂ form pieces values.items ∧ piece = encodeList pieces.flatten

theorem ListForm.list (formed : ListForm form piece values) : ∃ payload,piece = encodeList payload := by
  obtain ⟨pieces,_,spelled⟩ := formed
  exact ⟨_,spelled⟩

theorem ListForm.imp (weaker : ∀ piece value,form piece value → other piece value)
    (formed : ListForm form piece values) : ListForm other piece values := by
  obtain ⟨pieces,all,spelled⟩ := formed
  exact ⟨pieces,all.imp weaker,spelled⟩

theorem ListForm.item (formed : ListForm form piece values) : IsItem piece := by
  obtain ⟨payload,rfl⟩ := formed.list
  exact .list payload

theorem ListForm.nonempty (formed : ListForm form piece values) : piece ≠ [] := formed.item.nonempty

theorem pieces_all {property : β → Prop}
    (each : ∀ piece value,form piece value → property piece) (formed : List.Forall₂ form pieces values) :
    ∀ piece ∈ pieces,property piece :=
  ((List.forall₂_and_left pieces values).mp (formed.imp fun piece value one => ⟨each piece value one,one⟩)).1

theorem readListOf_exact {read : Decoder α} (exact_ : Exact read form)
    (some : ∀ piece value,form piece value → piece ≠ []) : Exact (readListOf read) (ListForm form) := by
  intro v values rest
  constructor
  · intro ran
    have suffix (target : Nat) (v : ByteView) (values : StdVector α) (rest : ByteView)
        (ran : readItems read target v = .ok (values,rest)) : ∃ taken,v.bytes = taken ++ rest.bytes := by
      obtain ⟨pieces,_,spelled,_⟩ := readAbove_sound exact_ (readItems_exact.mp ran)
      exact ⟨_,spelled⟩
    obtain ⟨payload,view,spelled,behind,inside⟩ := readList_sound suffix ran
    obtain ⟨pieces,formed,cut,_⟩ := readAbove_sound exact_ (readItems_exact.mp inside)
    have same := List.append_cancel_right (behind.symm.trans cut)
    exact ⟨_,spelled,pieces,formed,congrArg encodeList same⟩
  · rintro ⟨_,spelled,pieces,formed,rfl⟩
    exact readListOf_reads (formed.imp fun _ _ one => exact_.reads one) (pieces_all some formed) v rest spelled

theorem items_views (items : ∀ piece ∈ pieces,IsItem piece) (small : pieces.flatten.length < sizeLimit) :
    ∃ views : StdVector ByteView,List.Forall₂ (fun piece view => piece = view.bytes ∧ IsItem piece) pieces views.items := by
  have cut : ∃ views : List ByteView,List.Forall₂ (fun piece view => piece = view.bytes ∧ IsItem piece) pieces views := by
    induction pieces with
    | nil => exact ⟨[],.nil⟩
    | cons piece rest ih =>
      obtain ⟨views,all⟩ := ih (fun piece member => items piece (List.mem_cons_of_mem _ member)) (back_fits small)
      exact ⟨⟨piece,front_fits small⟩ :: views,.cons ⟨rfl,items piece List.mem_cons_self⟩ all⟩
  obtain ⟨views,all⟩ := cut
  have few := items_le_flatten items
  exact ⟨⟨views,by rw [← all.length_eq]; omega⟩,all⟩

end lists
end EvmRelay.Rlp
