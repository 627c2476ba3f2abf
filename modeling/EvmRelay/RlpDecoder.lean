import EvmRelay.RlpHeader

namespace EvmRelay.Rlp
open RlpSpec

-- RlpDecoder is its remaining view. Each reader returns the value and the view
-- it leaves; after an error the source's callers drop the decoder.
def isFinished (v : ByteView) : Bool := v.bytes.isEmpty

def isList (v : ByteView) : Except DecodingError Bool :=
  match v.bytes with
  | [] => .error .kInputTooShort
  | first :: _ => .ok (decide (kShortListOffset ≤ first.toNat))

def peekHeader (v : ByteView) : Except DecodingError Header := do
  let (h,_) ← decodeHeaderImpl v
  return h

def readBytes (v : ByteView) : Except DecodingError (List UInt8 × ByteView) := do
  let h ← peekHeader v
  if h.list then .error .kUnexpectedList
  else
    let view ← skipHeaderInternal v
    if view.length < h.payloadSizeBytes then .error .kInputTooShort
    else .ok (view.bytes.take h.payloadSizeBytes,view.removePrefix h.payloadSizeBytes)

def readListHeaderBytes (v : ByteView) : Except DecodingError (Nat × ByteView) := do
  let h ← peekHeader v
  if ¬ h.list then .error .kUnexpectedString
  else
    let view ← skipHeaderInternal v
    return (h.payloadSizeBytes,view)

def skipItem (v : ByteView) : Except DecodingError ByteView := do
  let h ← peekHeader v
  let view ← skipHeaderInternal v
  if view.length < h.payloadSizeBytes then .error .kInputTooShort
  else .ok (view.removePrefix h.payloadSizeBytes)

-- A client that walks a whole item. As in read_vector, the payload of a list is
-- cut out of the view and read until nothing of it is left.
def walkItem (inner : ByteView → Except DecodingError (List Item)) (v : ByteView) :
    Except DecodingError (Item × ByteView) := do
  if ← isList v then
    let (payloadLen,view) ← readListHeaderBytes v
    let items ← inner (view.substr 0 payloadLen)
    return (.list items,view.removePrefix payloadLen)
  else
    let (bytes,view) ← readBytes v
    return (.str bytes,view)

def walkItems : Nat → ByteView → Except DecodingError (List Item)
  | 0,v => if isFinished v then .ok [] else .error .kListLengthMismatch
  | fuel+1,v =>
    if isFinished v then .ok []
    else do
      let (item,view) ← walkItem (walkItems fuel) v
      let items ← walkItems fuel view
      return item :: items

-- Every item takes a byte, so the view's own length bounds the walk.
def walk (v : ByteView) : Except DecodingError (Item × ByteView) := walkItem (walkItems v.length) v

theorem peekHeader_exact (v : ByteView) (h : Header) : peekHeader v = .ok h ↔ Announces v.bytes h := by
  refine bind_ok.trans ⟨?_,?_⟩
  · rintro ⟨⟨found,view⟩,decoded,same⟩
    cases same
    exact ((decodeHeaderImpl_exact ..).mp decoded).1
  · intro announced
    exact ⟨_,(decodeHeaderImpl_exact v h).mpr ⟨announced,rfl⟩,rfl⟩

theorem Announces.spelled (announced : Announces bytes ⟨false,size,offset⟩) :
    bytes = encodeString ((bytes.drop offset).take size) ++ bytes.drop (offset + size) := by
  cases announced with
  | literal small => simp [encodeString_literal small]
  | @string size tail room needed =>
    have payload : ((stringHeader size ++ tail).drop (stringHeader size).length).take size = tail.take size := by
      rw [List.drop_left]
    have width : (tail.take size).length = size := by rw [List.length_take]; omega
    have headed : (tail.take size).length ≠ 1 ∨ 0x80 ≤ ((tail.take size).headD 0).toNat := by
      by_cases single : size = 1
      · right
        cases tail with
        | nil => exact absurd room (by rw [single]; simp)
        | cons first rest => simpa [single] using needed single
      · left
        omega
    rw [payload,encodeString_headed headed,width,← List.drop_drop,List.drop_left,List.append_assoc,
      List.take_append_drop]

theorem encodeString_announced (bytes rest : List UInt8) :
    ∃ offset, Announces (encodeString bytes ++ rest) ⟨false,bytes.length,offset⟩ ∧
      (encodeString bytes ++ rest).drop offset = bytes ++ rest ∧
      (bytes.length = 1 → 0 < offset → 0x80 ≤ (bytes.headD 0).toNat) := by
  by_cases literal : bytes.length = 1 ∧ bytes.headD 0 < 0x80
  · obtain ⟨byte,single⟩ := List.length_eq_one_iff.mp literal.1
    subst single
    have small : byte.toNat < 0x80 := literal.2
    rw [encodeString_literal small]
    exact ⟨0,.literal small,rfl,fun _ headed => absurd headed (Nat.lt_irrefl 0)⟩
  · have headed : bytes.length = 1 → 0x80 ≤ (bytes.headD 0).toNat := by
      intro single
      by_contra below
      exact literal ⟨single,UInt8.lt_iff_toNat_lt.mpr (by simpa using below)⟩
    rw [encodeString_headed (by omega),List.append_assoc]
    refine ⟨_,?_,List.drop_left,fun single _ => headed single⟩
    refine .string (by simp) ?_
    intro single
    cases bytes with
    | nil => simp at single
    | cons first more => simpa using headed single

theorem readBytes_sound (read : readBytes v = .ok (bytes,rest)) : v.bytes = encodeString bytes ++ rest.bytes := by
  obtain ⟨⟨list,size,offset⟩,peeked,checked⟩ := bind_ok.mp read
  have announced := (peekHeader_exact v _).mp peeked
  split_ifs at checked with string
  rw [skipHeaderInternal_exact announced] at checked
  cases list with
  | true => exact absurd rfl string
  | false =>
    obtain ⟨view,skipped,checked⟩ := bind_ok.mp checked
    cases skipped
    split_ifs at checked
    cases checked
    have spelled := announced.spelled
    simpa only [ByteView.removePrefix_bytes,List.drop_drop] using spelled

theorem readBytes_complete (spelled : v.bytes = encodeString bytes ++ rest.bytes) : readBytes v = .ok (bytes,rest) := by
  obtain ⟨offset,announced,payload,_⟩ := encodeString_announced ..
  rw [← spelled] at announced payload
  have view : (v.removePrefix offset).length = bytes.length + rest.bytes.length := by
    rw [ByteView.length,ByteView.removePrefix_bytes,payload,List.length_append]
  unfold readBytes
  rw [(peekHeader_exact v _).mpr announced]
  show (skipHeaderInternal v >>= _) = _
  rw [skipHeaderInternal_exact announced]
  show (if (v.removePrefix offset).length < bytes.length then _ else _) = _
  rw [if_neg (by omega)]
  congr 2
  · rw [ByteView.removePrefix_bytes,payload,List.take_left]
  · apply ByteView.ext_bytes
    rw [ByteView.removePrefix_bytes,ByteView.removePrefix_bytes,payload,List.drop_left]

theorem readBytes_exact (v : ByteView) (bytes : List UInt8) (rest : ByteView) :
    readBytes v = .ok (bytes,rest) ↔ v.bytes = encodeString bytes ++ rest.bytes :=
  ⟨readBytes_sound,readBytes_complete⟩

theorem peekHeader_list (v : ByteView) (size offset : Nat) : peekHeader v = .ok ⟨true,size,offset⟩ ↔
      ∃ tail, v.bytes = listHeader size ++ tail ∧ offset = (listHeader size).length ∧ size ≤ tail.length := by
  rw [peekHeader_exact]
  refine ⟨?_,?_⟩
  · intro announced
    generalize v.bytes = bytes at announced
    cases announced with
    | @list size tail room => exact ⟨tail,rfl,rfl,room⟩
  · rintro ⟨tail,spelled,rfl,room⟩
    rw [spelled]
    exact .list room

theorem readListHeaderBytes_exact (v : ByteView) (size : Nat) (rest : ByteView) :
    readListHeaderBytes v = .ok (size,rest) ↔ v.bytes = listHeader size ++ rest.bytes ∧ size ≤ rest.length := by
  refine ⟨?_,?_⟩
  · intro read
    obtain ⟨⟨list,found,offset⟩,peeked,checked⟩ := bind_ok.mp read
    have announced := (peekHeader_exact v _).mp peeked
    dsimp only at checked
    split at checked
    · cases checked
    rename_i kind
    cases list with
    | false => exact absurd (by decide) kind
    | true =>
      obtain ⟨tail,spelled,rfl,room⟩ := (peekHeader_list ..).mp peeked
      rw [skipHeaderInternal_exact announced] at checked
      cases checked
      rw [ByteView.length,ByteView.removePrefix_bytes,spelled,List.drop_left]
      exact ⟨rfl,room⟩
  · intro headed
    have peeked := (peekHeader_list ..).mpr ⟨rest.bytes,headed.1,rfl,headed.2⟩
    have announced := (peekHeader_exact v _).mp peeked
    unfold readListHeaderBytes
    rw [peeked]
    show (skipHeaderInternal v >>= _) = _
    rw [skipHeaderInternal_exact announced,ByteView.removePrefix_eq headed.1]
    rfl

theorem listHeader_reads (spelled : v.bytes = listHeader size ++ payload) (room : size ≤ payload.length) :
    ∃ view,readListHeaderBytes v = .ok (size,view) ∧ view.bytes = payload := by
  obtain ⟨view,spelled,rfl⟩ := v.cut spelled
  exact ⟨view,(readListHeaderBytes_exact ..).mpr ⟨spelled,room⟩,rfl⟩

theorem skipItem_announced (announced : Announces v.bytes h) :
    skipItem v = .ok (v.removePrefix (h.headerSizeBytes + h.payloadSizeBytes)) := by
  have room : h.headerSizeBytes + h.payloadSizeBytes ≤ v.length := announced.room
  unfold skipItem
  rw [(peekHeader_exact v h).mpr announced,ok_bind,skipHeaderInternal_exact announced,ok_bind,
    ByteView.removePrefix_length,if_neg (by omega),ByteView.removePrefix_removePrefix]

theorem isList_first (spelled : v.bytes = first :: more) : isList v = .ok (decide (0xC0 ≤ first.toNat)) := by
  rw [isList,spelled]

theorem isList_announced (announced : Announces v.bytes h) : isList v = .ok h.list := by
  have room := Nat.le_trans (Nat.le_add_left _ _) announced.room
  have small := Nat.lt_of_le_of_lt room v.length_lt
  generalize spelled : v.bytes = bytes at announced
  cases announced with
  | literal small => rw [isList_first spelled,decide_eq_false (by omega)]
  | @string size tail =>
    obtain ⟨first,more,lead,_,below⟩ := header_first 0x80 0xB7 small (by decide) (by decide)
    rw [stringHeader,lead,List.cons_append] at spelled
    rw [isList_first spelled,decide_eq_false (by omega)]
  | @list size tail =>
    obtain ⟨first,more,lead,above,_⟩ := header_first 0xC0 0xF7 small (by decide) (by decide)
    rw [listHeader,lead,List.cons_append] at spelled
    rw [isList_first spelled,decide_eq_true above]

theorem listHeader_cut (room : size ≤ back.length) :
    listHeader size ++ back = encodeList (back.take size) ++ back.drop size := by
  rw [encodeList,List.length_take,Nat.min_eq_left room,List.append_assoc,List.take_append_drop]

theorem payload_cut : (∃ size view,readListHeaderBytes v = .ok (size,view) ∧ (view.substr 0 size).bytes = payload ∧
      view.removePrefix size = rest) ↔ v.bytes = encodeList payload ++ rest.bytes := by
  constructor
  · rintro ⟨size,view,headed,rfl,rfl⟩
    obtain ⟨spelled,room⟩ := (readListHeaderBytes_exact ..).mp headed
    rw [spelled,listHeader_cut room,ByteView.substr_bytes,List.drop_zero,ByteView.removePrefix_bytes]
  · intro spelled
    rw [encodeList,List.append_assoc] at spelled
    obtain ⟨view,headed,behind⟩ := listHeader_reads spelled (by simp)
    refine ⟨_,view,headed,?_,ByteView.removePrefix_eq behind⟩
    rw [ByteView.substr_bytes,List.drop_zero,behind,List.take_left]

theorem walkItem_exact (exactInner : ∀ w : ByteView, w.length < v.length → ∀ items,
      walkInner w = .ok items ↔ w.bytes = encodeItems items) :
    walkItem walkInner v = .ok (item,rest) ↔ v.bytes = encode item ++ rest.bytes := by
  have shorter {size : Nat} {view : ByteView} (headed : readListHeaderBytes v = .ok (size,view)) :
      (view.substr 0 size).length < v.length := by
    have positive := header_pos 0xC0 0xF7 size
    rw [ByteView.length,ByteView.length,((readListHeaderBytes_exact ..).mp headed).1,ByteView.substr_bytes,List.drop_zero,
      List.length_take,List.length_append,listHeader]
    omega
  refine bind_ok.trans ⟨?_,?_⟩
  · rintro ⟨kind,_,walked⟩
    cases kind with
    | true =>
      obtain ⟨⟨size,view⟩,headed,walked⟩ := bind_ok.mp walked
      obtain ⟨items,filled,walked⟩ := bind_ok.mp walked
      cases walked
      rw [encode]
      exact payload_cut.mp ⟨size,view,headed,(exactInner _ (shorter headed) items).mp filled,rfl⟩
    | false =>
      obtain ⟨⟨bytes,view⟩,read,walked⟩ := bind_ok.mp walked
      cases walked
      rw [encode]
      exact readBytes_sound read
  · intro spelled
    cases item with
    | str bytes =>
      rw [encode] at spelled
      obtain ⟨offset,announced,_⟩ := encodeString_announced ..
      rw [← spelled] at announced
      exact ⟨false,isList_announced announced,bind_ok.mpr ⟨(bytes,rest),readBytes_complete spelled,rfl⟩⟩
    | list items =>
      rw [encode] at spelled
      obtain ⟨size,view,headed,payload,rfl⟩ := payload_cut.mpr spelled
      obtain ⟨spelled,room⟩ := (readListHeaderBytes_exact ..).mp headed
      have announced := (peekHeader_exact v _).mp ((peekHeader_list ..).mpr ⟨_,spelled,rfl,room⟩)
      refine ⟨true,isList_announced announced,bind_ok.mpr ⟨_,headed,?_⟩⟩
      exact bind_ok.mpr ⟨items,(exactInner _ (shorter headed) items).mpr payload,rfl⟩

theorem isFinished_iff (v : ByteView) : isFinished v = true ↔ v.bytes = [] := List.isEmpty_iff

theorem encodeItems_nil_iff : encodeItems items = [] ↔ items = [] := by
  cases items with
  | nil => simp [encodeItems]
  | cons item rest =>
    have positive := List.length_pos_iff.mp (encode_pos item)
    simp [encodeItems,positive]

theorem behind_shorter {v view : ByteView} (spelled : v.bytes = encode item ++ view.bytes) : view.length < v.length := by
  have positive := encode_pos item
  rw [ByteView.length,ByteView.length,spelled,List.length_append]
  omega

-- Induction on the fuel: both the payload of a list and the view behind an
-- item are shorter than the view the item was read from.
theorem walkItems_exact (v : ByteView) (enough : v.length ≤ fuel) (items : List Item) :
    walkItems fuel v = .ok items ↔ v.bytes = encodeItems items := by
  induction fuel generalizing v items with
  | zero =>
    have none : v.bytes = [] := List.length_eq_zero_iff.mp (Nat.le_zero.mp enough)
    rw [walkItems,if_pos ((isFinished_iff v).mpr none),none,eq_comm (a := []),encodeItems_nil_iff]
    simp [eq_comm]
  | succ fuel ih =>
    rw [walkItems]
    split_ifs with finished
    · rw [(isFinished_iff v).mp finished,eq_comm (a := []),encodeItems_nil_iff]
      simp [eq_comm]
    have some : v.bytes ≠ [] := fun none => finished ((isFinished_iff v).mpr none)
    have exactInner : ∀ w : ByteView, w.length < v.length → ∀ items,
        walkItems fuel w = .ok items ↔ w.bytes = encodeItems items :=
      fun w shorter items => ih w (by omega) items
    refine bind_ok.trans ⟨?_,?_⟩
    · rintro ⟨⟨item,view⟩,one,walked⟩
      obtain ⟨more,others,walked⟩ := bind_ok.mp walked
      cases walked
      have spelled := (walkItem_exact exactInner).mp one
      rw [encodeItems,spelled,(exactInner view (behind_shorter spelled) more).mp others]
    · intro spelled
      cases items with
      | nil => exact absurd spelled some
      | cons item more =>
        rw [encodeItems] at spelled
        obtain ⟨view,spelled,behind⟩ := v.cut spelled
        refine ⟨(item,view),(walkItem_exact exactInner).mpr spelled,?_⟩
        exact bind_ok.mpr ⟨more,(exactInner view (behind_shorter spelled) more).mpr behind,rfl⟩

theorem walk_exact (v : ByteView) (item : Item) (rest : ByteView) :
    walk v = .ok (item,rest) ↔ v.bytes = encode item ++ rest.bytes := by
  have exactInner : ∀ w : ByteView, w.length < v.length → ∀ items,
      walkItems v.length w = .ok items ↔ w.bytes = encodeItems items :=
    fun w shorter items => walkItems_exact w (Nat.le_of_lt shorter) items
  exact walkItem_exact exactInner

-- One accepted form for strings, list headers and whole items. The header of a
-- list is shorter than every other announcement of its size.
theorem canonical_acceptance : (∀ (v : ByteView) (bytes : List UInt8) (rest : ByteView),
      readBytes v = .ok (bytes,rest) ↔ v.bytes = encodeString bytes ++ rest.bytes) ∧ (∀ (v : ByteView) (size offset : Nat),
      peekHeader v = .ok ⟨true,size,offset⟩ ↔
        ∃ tail, v.bytes = listHeader size ++ tail ∧ offset = (listHeader size).length ∧ size ≤ tail.length) ∧
    (∀ size < sizeLimit, AnnouncesList size (listHeader size) ∧
      ∀ other, AnnouncesList size other → other ≠ listHeader size → (listHeader size).length < other.length) ∧
    (∀ (v w : ByteView) (bytes : List UInt8) (rest : ByteView),
      readBytes v = .ok (bytes,rest) → readBytes w = .ok (bytes,rest) → v = w) ∧
    (∀ (v w : ByteView) (item : Item) (rest : ByteView),
      walk v = .ok (item,rest) → walk w = .ok (item,rest) → v = w) := by
  refine ⟨readBytes_exact,peekHeader_list,?_,?_,?_⟩
  · intro size small
    refine ⟨listHeader_announces small,?_⟩
    intro other announced different
    obtain ⟨least,only⟩ := listHeader_shortest announced
    exact Nat.lt_of_le_of_ne least (fun same => different (only same.symm))
  · intro v w bytes rest first second
    apply ByteView.ext_bytes
    rw [readBytes_sound first,readBytes_sound second]
  · intro v w item rest first second
    apply ByteView.ext_bytes
    rw [(walk_exact v item rest).mp first,(walk_exact w item rest).mp second]

end EvmRelay.Rlp
