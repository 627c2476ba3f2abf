import EvmRelay.EthRoundTrip
import EvmRelay.ObjectRoundTrip

namespace EvmRelay.Eth
open Rlp RlpSpec Reader Codec

structure NewPooledTransactionHashesMessage where
  types : StdVector UInt8
  sizes : StdVector (BitVec 32)
  hashes : StdVector Hash256
  deriving DecidableEq

-- types.size() and sizes.size() are compared with hashes.size().
def NewPooledTransactionHashesMessage.Even (msg : NewPooledTransactionHashesMessage) : Prop :=
  msg.types.items.length = msg.hashes.items.length ∧ msg.sizes.items.length = msg.hashes.items.length

instance (msg : NewPooledTransactionHashesMessage) : Decidable msg.Even := inferInstanceAs (Decidable (_ ∧ _))

def readUint32 : Decoder (BitVec 32) := readUnsigned (.integral .uint32)

def encodeUint32List (values : StdVector (BitVec 32)) : Encoder := writeList (forM values.items addUint32)

def decodeUint32List : Decoder (StdVector (BitVec 32)) := readListOf (orError readUint32 .kUnexpectedString)

-- Whatever error a nested encoder has, the caller returns its own.
def orTooLarge (write : Encoder) : Encoder := fun e =>
  match write e with
  | .ok after => .ok after
  | .error _ => .error .kPayloadTooLarge

def encodeNewPooledTxHashes (msg : NewPooledTransactionHashesMessage) : Except EncodingError (List UInt8) :=
  if ¬ msg.Even then .error .kEmptyInput
  else finalizeEncoding (writeList do
    addBytes msg.types.items
    orTooLarge (encodeUint32List msg.sizes)
    orTooLarge (encodeHashList msg.hashes))

-- PeekHeader of a probe, where a failed peek counts as no list.
def isListItem (item : ByteView) : Bool :=
  match peekHeader item with
  | .ok h => h.list
  | .error _ => false

-- if (!decoder.read(value) || !decoder.IsFinished()) return error;
def readWhole (read : Decoder α) (error : DecodingError) (item : ByteView) : Except DecodingError α :=
  match read item with
  | .ok (value,rest) => if isFinished rest then .ok value else .error error
  | .error _ => .error error

def decodeAnnouncement (typesItem sizesItem hashesItem : ByteView) : Except DecodingError NewPooledTransactionHashesMessage := do
  let types ← readWhole readByteBuffer .kUnexpectedString typesItem
  let (sizes,_) ← decodeUint32List sizesItem
  let (hashes,_) ← decodeHashList hashesItem
  let msg := ⟨types,sizes,hashes⟩
  if ¬ NewPooledTransactionHashesMessage.Even msg then .error .kUnexpectedLength else .ok msg

def readEach (read : α → Except ε β) : List α → Except ε (List β)
  | [] => .ok []
  | item :: rest => do
    let value ← read item
    let more ← readEach read rest
    return value :: more

theorem readEach_ok {read : α → Except ε β} :
    readEach read items = .ok values ↔ List.Forall₂ (fun item value => read item = .ok value) items values := by
  induction items generalizing values with
  | nil =>
    rw [List.forall₂_nil_left_iff,readEach,Except.ok.injEq]
    exact eq_comm
  | cons item rest ih =>
    rw [List.forall₂_cons_left_iff,readEach,bind_ok]
    constructor
    · rintro ⟨value,one,ran⟩
      obtain ⟨more,others,ran⟩ := bind_ok.mp ran
      cases ran
      exact ⟨value,more,one,ih.mp others,rfl⟩
    · rintro ⟨value,more,one,others,rfl⟩
      exact ⟨value,one,bind_ok.mpr ⟨more,ih.mpr others,rfl⟩⟩

def decodePlainHashes (items : StdVector ByteView) : Except DecodingError NewPooledTransactionHashesMessage :=
  match ran : readEach (readWhole (readFixed 32) .kUnexpectedLength) items.items with
  | .error error => .error error
  | .ok hashes => .ok ⟨.empty,.empty,⟨hashes,by rw [← (readEach_ok.mp ran).length_eq]; exact items.fits⟩⟩

-- Three items of which the last two are lists are an eth/68 announcement.
def decodePooledItems (items : StdVector ByteView) : Except DecodingError NewPooledTransactionHashesMessage :=
  match items.items with
  | [types,sizes,hashes] =>
    if isListItem sizes && isListItem hashes then decodeAnnouncement types sizes hashes else decodePlainHashes items
  | _ => decodePlainHashes items

def decodeNewPooledTxHashes (rlpData : ByteView) : Except DecodingError NewPooledTransactionHashesMessage := do
  let (items,_) ← readListOf consumeNextItem rlpData
  decodePooledItems items

section pooled
variable {v : ByteView}

def SizesForm : List UInt8 → StdVector (BitVec 32) → Prop := ListForm UnsignedForm

def AnnouncementForm (piece : List UInt8) (msg : NewPooledTransactionHashesMessage) : Prop :=
  msg.Even ∧ ∃ sizes hashes,piece = encodeList (encodeString msg.types.items ++ (sizes ++ hashes)) ∧
    SizesForm sizes msg.sizes ∧ HashListForm hashes msg.hashes

def PlainForm (piece : List UInt8) (msg : NewPooledTransactionHashesMessage) : Prop :=
  msg.types = .empty ∧ msg.sizes = .empty ∧ HashListForm piece msg.hashes

theorem sizes_exact : Exact decodeUint32List SizesForm := by
  refine readListOf_exact (orError_exact _ (readUnsigned_form (.integral .uint32))) ?_
  intro piece value formed
  obtain ⟨payload,rfl,_⟩ := formed.string
  exact encodeString_nonempty payload

theorem readWhole_exact {read : Decoder α} (exact_ : Exact read form) :
    readWhole read error item = .ok value ↔ form item.bytes value := by
  unfold readWhole
  constructor
  · intro ran
    split at ran
    · rename_i found rest read
      split at ran
      · rename_i finished
        cases ran
        obtain ⟨piece,spelled,formed⟩ := (exact_ item value rest).mp read
        have empty : rest.bytes = [] := List.isEmpty_iff.mp finished
        rw [symbols_bytes,symbols_bytes,empty,List.append_nil] at spelled
        rwa [spelled]
      · cases ran
    · cases ran
  · intro formed
    have read := exact_.reads formed item .empty (List.append_nil _).symm
    rw [read]
    rfl

theorem isListItem_list (spelled : item.bytes = encodeList payload) : isListItem item = true := by
  have peeked := peekHeader_encodeList (spelled.trans (List.append_nil _).symm)
  rw [isListItem,peeked]

theorem isListItem_string (spelled : item.bytes = encodeString payload) : isListItem item = false := by
  have whole : item.bytes = encodeString payload ++ ByteView.empty.bytes := spelled.trans (List.append_nil _).symm
  obtain ⟨offset,peeked,_⟩ := string_layout whole
  rw [isListItem,peeked]

theorem readListOf_item {read : Decoder (StdVector α)} (exact_ : Exact read (ListForm form))
    (whole : IsItem item.bytes) (ran : read item = .ok (values,rest)) : ListForm form item.bytes values := by
  obtain ⟨piece,spelled,formed⟩ := (exact_ item values rest).mp ran
  by_cases more : rest.bytes = []
  · rw [symbols_bytes,symbols_bytes,more,List.append_nil] at spelled
    rwa [spelled]
  · exact absurd item.fits fun small => item_not_followed whole formed.item spelled more small

theorem decodeAnnouncement_exact (sized : IsItem sizes.bytes) (hashed : IsItem hashes.bytes) :
    decodeAnnouncement types sizes hashes = .ok msg ↔
      msg.Even ∧ types.bytes = encodeString msg.types.items ∧ SizesForm sizes.bytes msg.sizes ∧
        HashListForm hashes.bytes msg.hashes := by
  unfold decodeAnnouncement
  rw [bind_ok]
  constructor
  · rintro ⟨kinds,one,ran⟩
    obtain ⟨⟨lengths,_⟩,two,ran⟩ := bind_ok.mp ran
    obtain ⟨⟨found,_⟩,three,ran⟩ := bind_ok.mp ran
    dsimp only at ran
    split at ran
    · cases ran
    · rename_i even
      cases ran
      exact ⟨Decidable.not_not.mp even,(readWhole_exact readByteBuffer_exact).mp one,readListOf_item sizes_exact sized two,
        readListOf_item hashList_exact hashed three⟩
  · rintro ⟨even,kinds,lengths,found⟩
    refine ⟨msg.types,(readWhole_exact readByteBuffer_exact).mpr kinds,?_⟩
    refine bind_ok.mpr ⟨(msg.sizes,.empty),sizes_exact.reads lengths sizes .empty (List.append_nil _).symm,?_⟩
    refine bind_ok.mpr ⟨(msg.hashes,.empty),hashList_exact.reads found hashes .empty (List.append_nil _).symm,?_⟩
    exact if_neg (not_not_intro even)

theorem decodePlainHashes_exact : decodePlainHashes items = .ok msg ↔ msg.types = .empty ∧ msg.sizes = .empty ∧
      List.Forall₂ (fun item hash => item.bytes = fixedWire hash) items.items msg.hashes.items := by
  have each (hashes : List Hash256) : readEach (readWhole (readFixed 32) .kUnexpectedLength) items.items = .ok hashes ↔
      List.Forall₂ (fun item hash => item.bytes = fixedWire hash) items.items hashes := by
    rw [readEach_ok]
    have same (item : ByteView) (hash : Hash256) :
        readWhole (readFixed 32) .kUnexpectedLength item = .ok hash ↔ item.bytes = fixedWire hash :=
      readWhole_exact (readFixed_exact 32)
    simp only [same]
  obtain ⟨types,sizes,hashes⟩ := msg
  unfold decodePlainHashes
  constructor
  · intro ran
    split at ran
    · cases ran
    · rename_i found ran'
      cases ran
      exact ⟨rfl,rfl,(each found).mp ran'⟩
  · rintro ⟨rfl,rfl,formed⟩
    have ran := (each hashes.items).mpr formed
    split
    · rename_i wrong
      cases ran.symm.trans wrong
    · rename_i found ran'
      cases ran.symm.trans ran'
      rfl

theorem decodePooledItems_plain (formed : List.Forall₂ (fun item hash => item.bytes = fixedWire hash) items.items hashes) :
    decodePooledItems items = decodePlainHashes items := by
  unfold decodePooledItems
  split
  · rename_i types sizes found three
    rw [three] at formed
    obtain ⟨_,_,_,rest,_⟩ := List.forall₂_cons_left_iff.mp formed
    obtain ⟨_,_,string,_⟩ := List.forall₂_cons_left_iff.mp rest
    rw [isListItem_string string,Bool.false_and,if_neg Bool.false_ne_true]
  · rfl

theorem decodePooledItems_announcement (three : items.items = [types,sizes,hashes])
    (sized : sizes.bytes = encodeList payload) (hashed : hashes.bytes = encodeList other) :
    decodePooledItems items = decodeAnnouncement types sizes hashes := by
  unfold decodePooledItems
  rw [three]
  dsimp only
  rw [isListItem_list sized,isListItem_list hashed]
  rfl

theorem pieces_bytes
    (all : List.Forall₂ (fun piece item => piece = item.bytes ∧ IsItem piece) pieces items) :
    pieces = items.map ByteView.bytes ∧ ∀ item ∈ items,IsItem item.bytes := by
  induction all with
  | nil => simp
  | cons one _ ih =>
    obtain ⟨rfl,item⟩ := one
    exact ⟨by rw [ih.1,List.map_cons],List.forall_mem_cons.mpr ⟨item,ih.2⟩⟩

theorem bytes_pieces (whole : ∀ item ∈ items,IsItem item.bytes) :
    List.Forall₂ (fun piece item => piece = item.bytes ∧ IsItem piece) (items.map ByteView.bytes) items := by
  rw [List.forall₂_map_left_iff,List.forall₂_same]
  exact fun item member => ⟨rfl,whole item member⟩

theorem decodeNewPooledTxHashes_items : decodeNewPooledTxHashes v = .ok msg ↔
    ∃ (items : StdVector ByteView) (rest : List UInt8),v.bytes = encodeList (items.items.map ByteView.bytes).flatten ++ rest ∧
      (∀ item ∈ items.items,IsItem item.bytes) ∧ decodePooledItems items = .ok msg := by
  have cut := readListOf_exact consumeNextItem_exact fun _ _ formed => formed.2.nonempty
  unfold decodeNewPooledTxHashes
  rw [bind_ok]
  constructor
  · rintro ⟨⟨items,rest⟩,read,ran⟩
    obtain ⟨_,spelled,pieces,all,rfl⟩ := (cut v items rest).mp read
    obtain ⟨rfl,whole⟩ := pieces_bytes all
    exact ⟨items,rest.bytes,spelled,whole,ran⟩
  · rintro ⟨items,rest,spelled,whole,ran⟩
    obtain ⟨view,rfl⟩ := ByteView.exists_behind spelled
    exact ⟨(items,view),(cut v items view).mpr ⟨_,spelled,_,bytes_pieces whole,rfl⟩,ran⟩

theorem exists_items (whole : ∀ piece ∈ pieces,IsItem piece)
    (spelled : v.bytes = encodeList pieces.flatten ++ rest) :
    ∃ items : StdVector ByteView,items.items.map ByteView.bytes = pieces := by
  have small : (encodeList pieces.flatten ++ rest).length < sizeLimit := spelled ▸ v.fits
  obtain ⟨items,all⟩ := items_views whole (encodeList_shorter (front_fits small))
  exact ⟨items,(pieces_bytes all).1.symm⟩

theorem AnnouncementForm.decoded (spelled : v.bytes = piece ++ rest) (formed : AnnouncementForm piece msg) :
    decodeNewPooledTxHashes v = .ok msg := by
  obtain ⟨even,sizes,hashes,rfl,lengths,found⟩ := formed
  have whole : ∀ piece ∈ [encodeString msg.types.items,sizes,hashes],IsItem piece := by
    simp [IsItem.string,lengths.item,found.item]
  have cut : encodeString msg.types.items ++ (sizes ++ hashes) = [encodeString msg.types.items,sizes,hashes].flatten := by simp
  rw [cut] at spelled
  obtain ⟨items,same⟩ := exists_items whole spelled
  rw [← same] at spelled whole
  obtain ⟨one,two,three,views,kinds,rfl,rfl⟩ : ∃ one two three : ByteView,items.items = [one,two,three] ∧
      one.bytes = encodeString msg.types.items ∧ two.bytes = sizes ∧ three.bytes = hashes := by
    simpa [List.map_eq_cons_iff] using same
  obtain ⟨_,sized⟩ := lengths.list
  obtain ⟨_,hashed⟩ := found.list
  refine decodeNewPooledTxHashes_items.mpr ⟨items,rest,spelled,List.forall_mem_map.mp whole,?_⟩
  rw [decodePooledItems_announcement views sized hashed]
  exact (decodeAnnouncement_exact lengths.item found.item).mpr ⟨even,kinds,lengths,found⟩

theorem PlainForm.decoded (spelled : v.bytes = piece ++ rest) (formed : PlainForm piece msg) :
    decodeNewPooledTxHashes v = .ok msg := by
  obtain ⟨types,sizes,pieces,formed,rfl⟩ := formed
  have string (piece : List UInt8) (hash : Hash256) (same : piece = fixedWire hash) : IsItem piece := same ▸ .string _
  have whole := pieces_all string formed
  obtain ⟨items,rfl⟩ := exists_items whole spelled
  rw [List.forall₂_map_left_iff] at formed
  refine decodeNewPooledTxHashes_items.mpr ⟨items,rest,spelled,List.forall_mem_map.mp whole,?_⟩
  rw [decodePooledItems_plain formed]
  exact decodePlainHashes_exact.mpr ⟨types,sizes,formed⟩

theorem listForm_flatMap (wire : α → List UInt8) (each : ∀ item,form (wire item) item) :
    ListForm form (encodeList (values.items.flatMap wire)) values := by
  refine ⟨values.items.map wire,?_,by rw [List.flatMap_def]⟩
  rw [List.forall₂_map_left_iff,List.forall₂_same]
  exact fun item _ => each item

theorem announcement_not_plain {plain : List Hash256}
    (announced : v.bytes = encodeList (encodeString types ++ (encodeList sizes ++ encodeList hashes)))
    (listed : v.bytes = encodeList (plain.flatMap fixedWire)) : False := by
  have small : (encodeList (encodeString types ++ (encodeList sizes ++ encodeList hashes))).length < sizeLimit := announced ▸ v.fits
  have same := encodeList_same (announced.symm.trans listed) small
  have cut : [encodeString types,encodeList sizes,encodeList hashes].flatten = (plain.map fixedWire).flatten := by
    rw [← List.flatMap_def,← same]
    simp
  have inner : [encodeString types,encodeList sizes,encodeList hashes].flatten.length < sizeLimit := by
    have shorter := encodeList_shorter small
    simpa using shorter
  have items := items_same (by simp [IsItem.string,IsItem.list]) (by simp [fixedWire,IsItem.string]) cut inner
  have member : encodeList sizes ∈ plain.map fixedWire := items ▸ by simp
  obtain ⟨hash,_,string⟩ := List.mem_map.mp member
  have fits : (encodeList sizes).length < sizeLimit := by
    simp only [List.flatten_cons,List.length_append] at inner
    omega
  exact string_not_list (v := ⟨_,fits⟩) (string.symm.trans (List.append_nil _).symm) (List.append_nil _).symm

end pooled

def sizesWire (sizes : StdVector (BitVec 32)) : Wire := Wire.list (some (sizes.items.flatMap fun size => encodeScalar size.toNat))

def announcementWire (msg : NewPooledTransactionHashesMessage) : Wire :=
  if msg.Even then Wire.list (Wire.join (some (encodeString msg.types.items)) (Wire.join (sizesWire msg.sizes) (hashListWire msg.hashes)))
  else none

theorem sizes_writes : Writes (encodeUint32List sizes) (sizesWire sizes) := by
  have all := writes_each sizes.items fun size _ => addUint32_writes size
  rw [Wire.each_some] at all
  exact all.list

theorem orTooLarge_writes (writes : Writes write wire) : Writes (orTooLarge write) wire := by
  intro e after fits
  rw [← writes e after fits,orTooLarge]
  cases write e with
  | ok _ => rfl
  | error _ => simp

theorem encodeNewPooledTxHashes_exact (msg : NewPooledTransactionHashesMessage) (fits : bytes.length < sizeLimit) :
    encodeNewPooledTxHashes msg = .ok bytes ↔ announcementWire msg = some bytes := by
  unfold encodeNewPooledTxHashes announcementWire
  by_cases even : msg.Even
  · rw [if_neg (not_not_intro even),if_pos even]
    exact finalizeEncoding_exact ((addBytes_writes _).join
      ((orTooLarge_writes sizes_writes).join (orTooLarge_writes (hashList_writes _)))).list fits
  · rw [if_pos even,if_neg even]
    simp

theorem announcementWire_formed (written : announcementWire msg = some bytes) : AnnouncementForm bytes msg := by
  unfold announcementWire at written
  split at written
  · rename_i even
    cases written
    exact ⟨even,_,_,rfl,listForm_flatMap _ (fun _ => Or.inl rfl) ..,listForm_flatMap fixedWire (fun _ => rfl) ..⟩
  · cases written

theorem pooled_hashes_codec : (∀ msg : NewPooledTransactionHashesMessage,msg.Even →
      Normalizes encodeNewPooledTxHashes decodeNewPooledTxHashes announcementWire id msg) ∧
    (∀ (v : ByteView) (hashes : StdVector Hash256),v.bytes = encodeList (hashes.items.flatMap fixedWire) →
      decodeNewPooledTxHashes v = .ok ⟨.empty,.empty,hashes⟩) ∧
    (∀ (v : ByteView) (types sizes hashes : List UInt8) (plain : List Hash256),
      v.bytes = encodeList (encodeString types ++ (encodeList sizes ++ encodeList hashes)) →
        v.bytes ≠ encodeList (plain.flatMap fixedWire)) := by
  refine ⟨?_,?_,?_⟩
  · intro msg even
    have written : announcementWire msg = some _ := if_pos even
    refine Normalizes.of_wire (fun msg _ fits => encodeNewPooledTxHashes_exact msg fits) ?_ rfl written
    intro v spelled
    exact (announcementWire_formed spelled).decoded (List.append_nil _).symm
  · intro v hashes spelled
    exact PlainForm.decoded (spelled.trans (List.append_nil _).symm) ⟨rfl,rfl,listForm_flatMap fixedWire (fun _ => rfl) ..⟩
  · intro v types sizes hashes plain announced listed
    exact announcement_not_plain announced listed

def threeHashes : StdVector Hash256 := ⟨[.zeros 32,.zeros 32,.zeros 32],by decide⟩

def threeHashesView : ByteView := ⟨encodeList (threeHashes.items.flatMap fixedWire),by decide +kernel⟩

def oneAnnounced : NewPooledTransactionHashesMessage := ⟨.singleton 2,.singleton 120,.singleton (.zeros 32)⟩

theorem three_hashes_plain : decodeNewPooledTxHashes threeHashesView = .ok ⟨.empty,.empty,threeHashes⟩ ∧
      Normalizes encodeNewPooledTxHashes decodeNewPooledTxHashes announcementWire id oneAnnounced ∧
      encodeList (encodeString [] ++ (encodeList [] ++ encodeList [])) ≠ encodeList (threeHashes.items.flatMap fixedWire) :=
  ⟨pooled_hashes_codec.2.1 threeHashesView threeHashes rfl,pooled_hashes_codec.1 oneAnnounced (by decide),
    pooled_hashes_codec.2.2 ⟨_,by decide⟩ [] [] [] threeHashes.items rfl⟩

end EvmRelay.Eth
