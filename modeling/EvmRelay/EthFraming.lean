import EvmRelay.EthWire
import EvmRelay.ObjectFraming

namespace EvmRelay.Eth
open Rlp RlpSpec Reader Codec

-- The view begins with a complete list that decodes to the same message, and
-- inside that list the message has this layout.
def Framed (decode : ByteView → Except DecodingError μ) (layout : List UInt8 → μ → Prop) (v : ByteView) (msg : μ) : Prop :=
  ∃ payload after,v.bytes = encodeList payload ++ after ∧ (∃ l : ByteView,l.bytes = encodeList payload ∧ decode l = .ok msg) ∧
    layout payload msg

def OneList (v : ByteView) : Prop := ∃ payload,v.bytes = encodeList payload

theorem framed_payload {v : ByteView} (begins : v.bytes = encodeList payload ++ after)
    (headed : v.bytes = listHeader size ++ found) (room : size ≤ found.length) : found = payload ++ after := by
  have fits := v.fits
  rw [begins,encodeList,List.append_assoc] at fits headed
  exact ((listHeader_same headed (by simp) room fits).2).symm

theorem idForm_same (first : IdForm one requestId) (second : IdForm two requestId)
    (spelled : one ++ back = two ++ rest) (small : (one ++ back).length < sizeLimit) : back = rest := by
  cases requestId with
  | none =>
    cases first
    cases second
    exact spelled
  | some requestId => exact (forms_same readUint64_exact requestId requestId first second spelled small).2

-- A request as a decoder reads it behind a list header: its content, and what
-- stands in front of the content.
def BehindForm (front : List UInt8 → Option (BitVec 64) → Prop) (form : List UInt8 → α → Prop) (payload : List UInt8) (msg : Request α) : Prop :=
  ∃ id content,payload = id ++ content ∧ front id msg.requestId ∧ form content msg.content

def ReadsBehind (decode : ByteView → Except DecodingError (Request α)) (front : List UInt8 → Option (BitVec 64) → Prop)
    (form : List UInt8 → α → Prop) : Prop :=
  ∀ v msg,decode v = .ok msg ↔
    ∃ size payload,v.bytes = listHeader size ++ payload ∧ size ≤ payload.length ∧ BehindForm front form payload msg

def BehindShape (front shape : List UInt8 → Prop) (payload : List UInt8) : Prop :=
  ∃ id content,payload = id ++ content ∧ front id ∧ shape content

-- The bytes tell where the content starts: from the id that was read, or from
-- the shape in front and the list behind it.
structure TellsContent (front : List UInt8 → Option (BitVec 64) → Prop) (shape : List UInt8 → Prop) : Prop where
  shaped : ∀ {piece requestId},front piece requestId → shape piece
  apart : ∀ {one two back rest requestId},front one requestId → front two requestId → one ++ back = two ++ rest →
    (one ++ back).length < sizeLimit → back = rest
  content : ∀ {one two first second},shape one → shape two → one ++ encodeList first = two ++ encodeList second →
    (one ++ encodeList first).length < sizeLimit → encodeList first = encodeList second

section behind
variable
  {read : Decoder α}
  (reads : ReadsBehind decode front form) (tells : TellsContent front frontShape) (exact_ : Exact read form)
include reads tells exact_

theorem behind_framed_iff (decoded : decode v = .ok msg) :
    Framed decode (BehindForm front form) v msg ↔ OneList v := by
  obtain ⟨size,found,headed,room,formed⟩ := (reads v msg).mp decoded
  have small := back_fits (headed ▸ v.fits)
  constructor
  · rintro ⟨payload,after,begins,_,id,content,rfl,identified,inside⟩
    obtain ⟨other,rest,rfl,alike,follows⟩ := formed
    have cut := framed_payload begins headed room
    rw [List.append_assoc] at cut
    have same := tells.apart alike identified cut small
    have none := (forms_same exact_ msg.content msg.content follows inside ((List.append_nil rest).trans same)
      (by rw [List.append_nil]; exact back_fits small)).2
    exact ⟨_,by rw [begins,← none,List.append_nil]⟩
  · rintro ⟨payload,spelled⟩
    have same := framed_payload (spelled.trans (List.append_nil _).symm) headed room
    rw [List.append_nil] at same
    exact ⟨payload,[],by rw [spelled,List.append_nil],⟨v,spelled,decoded⟩,same ▸ formed⟩

theorem behind_layout_iff (lists : ∀ piece value,form piece value → ∃ payload,piece = encodeList payload)
    (formed : ∀ piece value,layout piece value → form piece value)
    (decided : ∀ piece value,form piece value → piece.length < sizeLimit → (layout piece value ↔ shape piece))
    (listed : ∀ piece,shape piece → ∃ payload,piece = encodeList payload)
    (decoded : decode v = .ok msg) :
    Framed decode (BehindForm front layout) v msg ↔ ∃ payload,v.bytes = encodeList payload ∧ BehindShape frontShape shape payload := by
  have room {id content : List UInt8} (spelled : v.bytes = encodeList (id ++ content)) :
      (id ++ content).length < sizeLimit ∧ content.length < sizeLimit := by
    have fits := v.fits
    rw [spelled] at fits
    have small := encodeList_shorter fits
    exact ⟨small,back_fits small⟩
  have whole := behind_framed_iff reads tells exact_ decoded
  constructor
  · rintro ⟨_,after,begins,alone,id,content,rfl,identified,laid⟩
    have inside := formed content msg.content laid
    obtain ⟨payload,spelled⟩ := whole.mp ⟨_,after,begins,alone,id,content,rfl,identified,inside⟩
    have fits := v.fits
    rw [begins] at fits
    have same := ((IsItem.list (id ++ content)).same (.list payload) ((begins.symm.trans spelled).trans (List.append_nil _).symm) fits)
    rw [same.2,List.append_nil] at begins
    exact ⟨_,begins,id,content,rfl,tells.shaped identified,(decided content msg.content inside (room begins).2).mp laid⟩
  · rintro ⟨_,spelled,id,content,rfl,before,shaped⟩
    obtain ⟨size,payload,headed,fits,other,rest,rfl,identified,inside⟩ := (reads v msg).mp decoded
    have same := framed_payload (spelled.trans (List.append_nil _).symm) headed fits
    rw [List.append_nil] at same
    obtain ⟨one,rfl⟩ := lists rest msg.content inside
    obtain ⟨two,rfl⟩ := listed content shaped
    have content := tells.content (tells.shaped identified) before same (same ▸ (room spelled).1)
    rw [← content] at shaped
    rw [← same] at spelled
    refine ⟨_,[],by rw [spelled,List.append_nil],⟨v,spelled,decoded⟩,other,_,rfl,identified,?_⟩
    exact (decided _ msg.content inside (room spelled).2).mpr shaped

end behind

def OptionalString (piece : List UInt8) : Prop := piece = [] ∨ ∃ digits,piece = encodeString digits

def RequestShape (shape : List UInt8 → Prop) : List UInt8 → Prop := BehindShape OptionalString shape

theorem idForm_tells : TellsContent IdForm OptionalString where
  shaped := by
    intro piece requestId identified
    cases requestId with
    | none => exact Or.inl identified
    | some requestId =>
      obtain ⟨digits,same,_⟩ := UnsignedForm.string identified
      exact Or.inr ⟨digits,same⟩
  apart := idForm_same
  content := by
    intro one two first second before other same small
    rcases before with rfl | ⟨digits,rfl⟩
    · rcases other with rfl | ⟨digits,rfl⟩
      · exact same
      · exact (string_not_list (v := ⟨_,small⟩) same (List.append_nil _).symm).elim
    · rcases other with rfl | ⟨others,rfl⟩
      · exact (string_not_list (v := ⟨_,small⟩) rfl (same.trans (List.append_nil _).symm)).elim
      · exact ((IsItem.string digits).same (.string others) same small).2

theorem request_framed_iff {read : Decoder α} (exact_ : Exact read form)
    (lists : ∀ piece value,form piece value → ∃ payload,piece = encodeList payload)
    (decoded : decodeRequest (fun _ => read) v = .ok msg) :
    Framed (decodeRequest fun _ => read) (RequestForm form) v msg ↔ OneList v :=
  behind_framed_iff (request_exact exact_ lists) idForm_tells exact_ decoded

-- An id that has to be there, and a field that is read and dropped.
def AnnotationForm (ignored : List UInt8 → β → Prop) (piece : List UInt8) (requestId : Option (BitVec 64)) : Prop :=
  ∃ id field number value,piece = id ++ field ∧ requestId = some number ∧ UnsignedForm id number ∧ ignored field value

def TwoStrings (piece : List UInt8) : Prop := ∃ id field,piece = encodeString id ++ encodeString field

theorem annotation_tells {read : Decoder β} (exact_ : Exact read ignored)
    (strings : ∀ piece value,ignored piece value → ∃ payload,piece = encodeString payload) :
    TellsContent (AnnotationForm ignored) TwoStrings where
  shaped := by
    rintro piece requestId ⟨_,_,number,value,rfl,_,numbered,formed⟩
    obtain ⟨digits,rfl,_⟩ := numbered.string
    obtain ⟨field,rfl⟩ := strings _ value formed
    exact ⟨digits,field,rfl⟩
  apart := by
    intro one two back rest requestId first second same small
    obtain ⟨id,field,number,value,rfl,_,numbered,formed⟩ := first
    obtain ⟨other,behind,found,held,rfl,_,alike,follows⟩ := second
    rw [List.append_assoc] at same small
    rw [List.append_assoc] at same
    have same := (forms_same readUint64_exact number found numbered alike same small).2
    exact (forms_same exact_ value held formed follows same (back_fits small)).2
  content := by
    intro one two first second before other same small
    obtain ⟨id,field,rfl⟩ := before
    obtain ⟨digits,behind,rfl⟩ := other
    rw [List.append_assoc] at same small
    rw [List.append_assoc] at same
    have same := ((IsItem.string id).same (.string digits) same small).2
    exact ((IsItem.string field).same (.string behind) same (back_fits small)).2

theorem annotated_exact {read : Decoder α} (skips : Exact readIgnored ignored) (exact_ : Exact read form) :
    ReadsBehind (decodeAnnotated readIgnored read) (AnnotationForm ignored) form := by
  intro v msg
  apply listHeader_whole
  intro size view
  simp only [bind_ok,Prod.exists,finish_ok]
  constructor
  · rintro ⟨number,left,one,value,behind,two,content,rest,three,rfl,rfl⟩
    obtain ⟨id,first,numbered⟩ := (orError_exact _ readUint64_exact view number left).mp one
    obtain ⟨field,second,formed⟩ := (orError_exact _ skips left value behind).mp two
    refine ⟨id ++ field,behind.bytes,?_,⟨id,field,number,value,rfl,rfl,numbered,formed⟩,(exact_whole exact_).mp three⟩
    exact (first.trans (congrArg (id ++ ·) second)).trans (List.append_assoc _ _ _).symm
  · rintro ⟨_,piece,whole,⟨id,field,number,value,rfl,some,numbered,formed⟩,inside⟩
    rw [List.append_assoc] at whole
    obtain ⟨left,first,whole⟩ := view.cut whole
    obtain ⟨behind,second,rfl⟩ := left.cut whole
    refine ⟨number,left,(orError_exact _ readUint64_exact).reads numbered view left first,value,behind,?_⟩
    refine ⟨(orError_exact _ skips).reads formed left behind second,_,_,(exact_whole exact_).mpr inside,rfl,by rw [← some]⟩

def ListShape (shape : List UInt8 → Prop) (piece : List UInt8) : Prop :=
  ∃ pieces : List (List UInt8),piece = encodeList pieces.flatten ∧ ∀ item ∈ pieces,IsItem item ∧ shape item

theorem ListShape.list (shaped : ListShape shape piece) : ∃ payload,piece = encodeList payload := by
  obtain ⟨pieces,spelled,_⟩ := shaped
  exact ⟨_,spelled⟩

theorem list_layout_iff
    (items : ∀ piece value,form piece value → IsItem piece) (formed : ∀ piece value,layout piece value → form piece value)
    (decided : ∀ piece value,form piece value → piece.length < sizeLimit → (layout piece value ↔ shape piece))
    (listed : ListForm form piece values) (small : piece.length < sizeLimit) :
    ListForm layout piece values ↔ ListShape shape piece := by
  have inside {pieces : List (List UInt8)} (spelled : piece = encodeList pieces.flatten) {item : List UInt8}
      (member : item ∈ pieces) : item.length < sizeLimit :=
    Nat.lt_of_le_of_lt (List.sublist_flatten_of_mem member).length_le (encodeList_shorter (spelled ▸ small))
  constructor
  · rintro ⟨pieces,all,spelled⟩
    refine ⟨pieces,spelled,?_⟩
    intro item member
    have some : ∀ item ∈ pieces,∃ value,layout item value := pieces_all (fun _ value one => ⟨value,one⟩) all
    obtain ⟨value,one⟩ := some item member
    have whole := formed item value one
    exact ⟨items item value whole,(decided item value whole (inside spelled member)).mp one⟩
  · rintro ⟨pieces,spelled,each⟩
    obtain ⟨others,all,same⟩ := listed
    have cut := encodeList_same (spelled.symm.trans same) (spelled ▸ small)
    have equal : pieces = others := items_same (fun item member => (each item member).1) (pieces_all items all) cut
      (encodeList_shorter (spelled ▸ small))
    subst equal
    refine ⟨pieces,?_,spelled⟩
    have shapes (item : List UInt8) (member : item ∈ pieces) : shape item ∧ item.length < sizeLimit :=
      ⟨(each item member).2,inside spelled member⟩
    have both := (List.forall₂_and_left pieces values.items).mpr ⟨shapes,all⟩
    exact both.imp fun item value one => (decided item value one.2 one.1.2).mpr one.1.1

def ReceiptLayout (piece : List UInt8) (receipt : Receipt) : Prop :=
  ObjectForm decodeReceipt piece receipt ∧ ReadInside decodeReceipt piece receipt

def ReceiptsLayout : List UInt8 → StdVector (StdVector Receipt) → Prop := ListForm (ListForm ReceiptLayout)

def ReceiptsShape : List UInt8 → Prop := ListShape (ListShape ReceiptShape)

theorem receipts_behind_iff (reads : ReadsBehind decode front ReceiptsForm) (tells : TellsContent front frontShape)
    (decoded : decode v = .ok msg) :
    Framed decode (BehindForm front ReceiptsLayout) v msg ↔ ∃ payload,v.bytes = encodeList payload ∧ BehindShape frontShape ReceiptsShape payload := by
  have receipt (piece : List UInt8) (receipt : Receipt) (formed : ObjectForm decodeReceipt piece receipt) (_ : piece.length < sizeLimit) :
      ReceiptLayout piece receipt ↔ ReceiptShape piece := by
    obtain ⟨whole,item,rfl,read⟩ := formed
    rw [← receipt_inside_iff read]
    exact ⟨fun laid => laid.2,fun inside => ⟨⟨whole,item,rfl,read⟩,inside⟩⟩
  have block (piece : List UInt8) (block : StdVector Receipt) (formed : BlockReceiptsForm piece block) (small : piece.length < sizeLimit) :
      ListForm ReceiptLayout piece block ↔ ListShape ReceiptShape piece :=
    list_layout_iff (fun _ _ formed => formed.1) (fun _ _ laid => laid.1) receipt formed small
  refine behind_layout_iff reads tells receipts_exact (fun _ _ formed => formed.list) ?_ ?_ (fun _ shaped => shaped.list) decoded
  · intro piece blocks laid
    exact ListForm.imp (fun _ _ => ListForm.imp fun _ _ laid => laid.1) laid
  · intro piece blocks formed small
    exact list_layout_iff (fun _ _ formed => formed.item) (fun _ _ => ListForm.imp fun _ _ laid => laid.1) block formed small

theorem receipts_framed_iff (decoded : decodeReceipts v = .ok msg) :
    Framed decodeReceipts (RequestForm ReceiptsLayout) v msg ↔ ∃ payload,v.bytes = encodeList payload ∧ RequestShape ReceiptsShape payload :=
  receipts_behind_iff (request_exact receipts_exact fun _ _ formed => formed.list) idForm_tells decoded

section schemas
variable (schemas : StdVector EthMessageSchema)

def GetReceiptsLayout : List UInt8 → GetReceiptsMessage → Prop :=
  if schemaHasField schemas kGetReceiptsMessageId (ascii "first_block_receipt_index") then
    BehindForm (AnnotationForm (UnsignedForm : List UInt8 → BitVec 64 → Prop)) HashListForm
  else RequestForm HashListForm

def ReceiptsMessageLayout : List UInt8 → ReceiptsMessage → Prop :=
  if schemaHasField schemas kReceiptsMessageId (ascii "last_block_incomplete") then BehindForm (AnnotationForm BoolForm) ReceiptsLayout
  else RequestForm ReceiptsLayout

def ReceiptsMessageShape : List UInt8 → Prop :=
  if schemaHasField schemas kReceiptsMessageId (ascii "last_block_incomplete") then BehindShape TwoStrings ReceiptsShape
  else RequestShape ReceiptsShape

theorem getReceiptsWith_framed_iff (decoded : decodeGetReceiptsWith schemas v = .ok msg) :
    Framed (decodeGetReceiptsWith schemas) (GetReceiptsLayout schemas) v msg ↔ OneList v := by
  by_cases has : schemaHasField schemas kGetReceiptsMessageId (ascii "first_block_receipt_index") = true
  · have decoder : decodeGetReceiptsWith schemas = decodeAnnotated readUint64 decodeHashList := by
      funext rlpData
      simp [decodeGetReceiptsWith,has]
    rw [GetReceiptsLayout,if_pos has,decoder]
    rw [decoder] at decoded
    refine behind_framed_iff (annotated_exact readUint64_exact hashList_exact) (annotation_tells readUint64_exact ?_) hashList_exact decoded
    intro piece value formed
    obtain ⟨digits,same,_⟩ := formed.string
    exact ⟨digits,same⟩
  · have decoder : decodeGetReceiptsWith schemas = decodeGetReceipts := by
      funext rlpData
      simp [decodeGetReceiptsWith,has]
    rw [GetReceiptsLayout,if_neg has,decoder]
    rw [decoder] at decoded
    exact request_framed_iff hashList_exact (fun _ _ formed => formed.list) decoded

theorem receiptsWith_framed_iff (decoded : decodeReceiptsWith schemas v = .ok msg) :
    Framed (decodeReceiptsWith schemas) (ReceiptsMessageLayout schemas) v msg ↔
      ∃ payload,v.bytes = encodeList payload ∧ ReceiptsMessageShape schemas payload := by
  by_cases has : schemaHasField schemas kReceiptsMessageId (ascii "last_block_incomplete") = true
  · have decoder : decodeReceiptsWith schemas = decodeAnnotated readBool decodeReceiptsPayload := by
      funext rlpData
      simp [decodeReceiptsWith,has]
    rw [ReceiptsMessageLayout,ReceiptsMessageShape,if_pos has,if_pos has,decoder]
    rw [decoder] at decoded
    refine receipts_behind_iff (annotated_exact readBool_exact receipts_exact) (annotation_tells readBool_exact ?_) decoded
    intro piece value formed
    exact formed.string
  · have decoder : decodeReceiptsWith schemas = decodeReceipts := by
      funext rlpData
      simp [decodeReceiptsWith,has]
    rw [ReceiptsMessageLayout,ReceiptsMessageShape,if_neg has,if_neg has,decoder]
    rw [decoder] at decoded
    exact receipts_framed_iff decoded

end schemas

def Envelope (piece raw : List UInt8) : Prop := piece = encodeString raw ∨ (piece = raw ∧ ∃ payload,raw = encodeList payload)

def TransactionLayout (piece : List UInt8) (tx : Transaction) : Prop :=
  TransactionForm piece tx ∧ ∃ raw,Envelope piece raw ∧ TransactionInside raw tx

def TransactionItemShape (piece : List UInt8) : Prop := ∃ raw,Envelope piece raw ∧ TransactionShape raw

theorem Envelope.same (first : Envelope piece raw) (second : Envelope piece other) (small : piece.length < sizeLimit) :
    raw = other := by
  rcases first with one | ⟨one,payload,rfl⟩
  · rcases second with two | ⟨two,payload,rfl⟩
    · have read {bytes : List UInt8} (spelled : piece = encodeString bytes) : readBytes ⟨piece,small⟩ = .ok (bytes,.empty) :=
        readBytes_complete (spelled.trans (List.append_nil _).symm)
      cases (read one).symm.trans (read two)
      rfl
    · exact (string_not_list (v := ⟨piece,small⟩) (one.trans (List.append_nil _).symm) (two.trans (List.append_nil _).symm)).elim
  · rcases second with two | ⟨two,_⟩
    · exact (string_not_list (v := ⟨piece,small⟩) (two.trans (List.append_nil _).symm) (one.trans (List.append_nil _).symm)).elim
    · exact one.symm.trans two

theorem transaction_layout_iff (piece : List UInt8) (tx : Transaction) (formed : TransactionForm piece tx)
    (small : piece.length < sizeLimit) : TransactionLayout piece tx ↔ TransactionItemShape piece := by
  have read : ∃ raw : ByteView,Envelope piece raw.bytes ∧ decodeTransaction raw = .ok tx := by
    rcases formed with ⟨raw,_,spelled,decoded⟩ | ⟨⟨payload,spelled⟩,_,item,same,decoded⟩
    · exact ⟨raw,Or.inl spelled,decoded⟩
    · exact ⟨item,Or.inr ⟨same.symm,payload,same.trans spelled⟩,decoded⟩
  obtain ⟨raw,enveloped,decoded⟩ := read
  constructor
  · rintro ⟨_,other,alike,inside⟩
    cases enveloped.same alike small
    exact ⟨_,enveloped,(transaction_inside_iff decoded).mp inside⟩
  · rintro ⟨other,alike,shaped⟩
    cases enveloped.same alike small
    exact ⟨formed,_,enveloped,(transaction_inside_iff decoded).mpr shaped⟩

def TransactionListLayout : List UInt8 → StdVector Transaction → Prop := ListForm TransactionLayout

def BodyLayout : List UInt8 → BlockBody → Prop := OpenListForm fun fields body =>
  ∃ txs ommers,fields = txs ++ ommers ∧ TransactionListLayout txs body.transactions ∧ HeadersForm ommers body.ommers

def BodyShape (piece : List UInt8) : Prop :=
  ∃ txs rest,piece = encodeList (txs ++ rest) ∧ ListShape TransactionItemShape txs

theorem body_layout_form (piece : List UInt8) (body : BlockBody) (laid : BodyLayout piece body) : BodyForm piece body := by
  obtain ⟨_,ignored,spelled,⟨txs,ommers,rfl,one,two⟩,items⟩ := laid
  exact ⟨_,ignored,spelled,⟨txs,ommers,rfl,ListForm.imp (fun _ _ laid => laid.1) one,two⟩,items⟩

theorem body_layout_iff (piece : List UInt8) (body : BlockBody) (formed : BodyForm piece body) (small : piece.length < sizeLimit) :
    BodyLayout piece body ↔ BodyShape piece := by
  have list {txs : List UInt8} (formed : TransactionListForm txs body.transactions) (small : txs.length < sizeLimit) :=
    list_layout_iff (fun _ _ formed => TransactionForm.item formed) (fun _ _ laid => laid.1) transaction_layout_iff formed small
  have inside {txs rest : List UInt8} (spelled : piece = encodeList (txs ++ rest)) : txs.length < sizeLimit :=
    front_fits (encodeList_shorter (spelled ▸ small))
  obtain ⟨_,ignored,spelled,⟨txs,ommers,rfl,one,two⟩,items⟩ := formed
  rw [List.append_assoc] at spelled
  constructor
  · rintro ⟨_,skipped,same,⟨first,second,rfl,laid,_⟩,_⟩
    rw [List.append_assoc] at same
    have formed := ListForm.imp (fun _ _ laid => laid.1) laid
    exact ⟨first,_,same,(list formed (inside same)).mp laid⟩
  · rintro ⟨first,rest,same,shaped⟩
    obtain ⟨payload,listed⟩ := shaped.list
    have cut := encodeList_same (spelled.symm.trans same) (spelled ▸ small)
    obtain ⟨rfl,_⟩ := one.item.same (listed ▸ .list payload) cut (encodeList_shorter (spelled ▸ small))
    exact ⟨txs ++ ommers,ignored,by rw [List.append_assoc]; exact spelled,
      ⟨txs,ommers,rfl,(list one (inside spelled)).mpr shaped,two⟩,items⟩

def BodiesLayout : List UInt8 → StdVector BlockBody → Prop := ListForm BodyLayout

def BodiesShape : List UInt8 → Prop := ListShape BodyShape

theorem bodies_framed_iff (decoded : decodeBlockBodies v = .ok msg) :
    Framed decodeBlockBodies (RequestForm BodiesLayout) v msg ↔ ∃ payload,v.bytes = encodeList payload ∧ RequestShape BodiesShape payload := by
  refine behind_layout_iff (request_exact bodies_exact fun _ _ formed => formed.list) idForm_tells bodies_exact
    (fun _ _ formed => formed.list) ?_ ?_ (fun _ shaped => shaped.list) decoded
  · intro piece bodies laid
    exact ListForm.imp body_layout_form laid
  · intro piece bodies formed small
    refine list_layout_iff ?_ body_layout_form body_layout_iff formed small
    intro piece body formed
    obtain ⟨payload,rfl⟩ := formed.list
    exact .list payload

def QueryLayout (payload : List UInt8) (msg : GetBlockHeadersMessage) : Prop :=
  match msg.requestId with
  | none => QueryForm payload msg.content
  | some requestId => ∃ id fields,payload = id ++ encodeList fields ∧ UnsignedForm id requestId ∧ QueryForm fields msg.content

def QueryShape (payload : List UInt8) : Prop :=
  (∃ start maxHeaders skip reverse,
    payload = encodeString start ++ (encodeString maxHeaders ++ (encodeString skip ++ encodeString reverse))) ∨
  (∃ id fields,payload = encodeString id ++ encodeList fields)

theorem queryRequest_cut (formed : QueryRequestForm found msg)
    (inside : QueryLayout payload msg) (cut : found = payload ++ after) (small : found.length < sizeLimit) :
    after = [] ∧ QueryShape payload := by
  have ends {one two back : List UInt8} (first : QueryForm one msg.content) (second : QueryForm two msg.content) (same : one = two ++ back)
      (small : one.length < sizeLimit) : back = [] :=
    (forms_same query_exact msg.content msg.content first second ((List.append_nil one).trans same) (by rwa [List.append_nil])).2.symm
  unfold QueryRequestForm at formed
  unfold QueryLayout at inside
  cases some : msg.requestId with
  | none =>
    rw [some] at formed inside
    exact ⟨ends formed inside cut small,Or.inl inside.strings⟩
  | some requestId =>
    rw [some] at formed inside
    obtain ⟨other,inner,rest,rfl,fits,alike,follows⟩ := formed
    obtain ⟨id,fields,rfl,numbered,inside⟩ := inside
    rw [List.append_assoc] at cut
    have same := (forms_same readUint64_exact requestId requestId alike numbered cut small).2
    rw [encodeList,List.append_assoc] at same
    obtain ⟨_,same⟩ := listHeader_same same fits (by simp) (back_fits small)
    obtain ⟨bytes,rfl,_⟩ := numbered.string
    exact ⟨ends follows inside same (back_fits (back_fits small)),Or.inr ⟨bytes,fields,rfl⟩⟩

theorem queryRequest_laid (formed : QueryRequestForm payload msg)
    (shape : QueryShape payload) (small : payload.length < sizeLimit) : QueryLayout payload msg := by
  unfold QueryRequestForm at formed
  unfold QueryLayout
  cases some : msg.requestId with
  | none =>
    rw [some] at formed
    exact formed
  | some requestId =>
    rw [some] at formed
    obtain ⟨id,inner,fields,rfl,fits,numbered,formed⟩ := formed
    obtain ⟨bytes,rfl,_⟩ := numbered.string
    rcases shape with ⟨start,maxHeaders,skip,reverse,same⟩ | ⟨other,listed,same⟩
    · have strings := ((IsItem.string bytes).same (.string start) same small).2
      exact (string_not_list (v := ⟨listHeader inner ++ fields,back_fits small⟩) strings (listHeader_cut fits)).elim
    · have list := ((IsItem.string bytes).same (.string other) same small).2
      obtain ⟨rfl,rfl⟩ := listHeader_same list fits (Nat.le_refl _) (back_fits small)
      exact ⟨_,fields,rfl,numbered,formed⟩

theorem query_framed_iff (decoded : decodeGetBlockHeaders v = .ok msg) :
    Framed decodeGetBlockHeaders QueryLayout v msg ↔ ∃ payload,v.bytes = encodeList payload ∧ QueryShape payload := by
  obtain ⟨size,found,headed,room,formed⟩ := (queryRequest_exact v msg).mp decoded
  have small := back_fits (headed ▸ v.fits)
  constructor
  · rintro ⟨payload,after,begins,_,inside⟩
    obtain ⟨none,shape⟩ := queryRequest_cut formed inside (framed_payload begins headed room) small
    exact ⟨payload,by rw [begins,none,List.append_nil],shape⟩
  · rintro ⟨payload,spelled,shape⟩
    have same := framed_payload (spelled.trans (List.append_nil _).symm) headed room
    rw [List.append_nil] at same
    subst same
    exact ⟨found,[],by rw [spelled,List.append_nil],⟨v,spelled,decoded⟩,queryRequest_laid formed shape small⟩

def EntryLayout (piece : List UInt8) (entry : NewBlockHashEntry) : Prop :=
  ∃ number,piece = encodeList (fixedWire entry.hash ++ number) ∧ UnsignedForm number entry.number

def EntriesLayout (payload : List UInt8) (msg : NewBlockHashesMessage) : Prop :=
  ∃ pieces,payload = pieces.flatten ∧ List.Forall₂ EntryLayout pieces msg.entries.items

def EntryShape (piece : List UInt8) : Prop := ∃ hash number,piece = encodeList (encodeString hash ++ encodeString number)

theorem readNewBlockHashEntry_ok (ran : readNewBlockHashEntry v = .ok (entry,rest)) : ∃ size number,
      v.bytes = listHeader size ++ (fixedWire entry.hash ++ (number ++ rest.bytes)) ∧
      size ≤ (fixedWire entry.hash ++ (number ++ rest.bytes)).length ∧ UnsignedForm number entry.number := by
  obtain ⟨size,view,headed,ran⟩ := bind_ok_iff.mp ran
  obtain ⟨hash,left,one,ran⟩ := bind_ok_iff.mp ran
  obtain ⟨number,_,two,ran⟩ := bind_ok_iff.mp ran
  cases ran
  obtain ⟨spelled,room⟩ := (readListHeaderBytes_exact ..).mp headed
  obtain ⟨_,hashed,rfl⟩ := (hash_exact view hash left).mp one
  obtain ⟨digits,numbered,formed⟩ := (orError_exact _ readUint64_exact left number rest).mp two
  have behind : view.bytes = fixedWire hash ++ (digits ++ rest.bytes) := hashed.trans (congrArg (fixedWire hash ++ ·) numbered)
  rw [ByteView.length,behind] at room
  rw [behind] at spelled
  exact ⟨size,digits,spelled,room,formed⟩

theorem entry_taken (shape : EntryShape piece)
    (spelled : v.bytes = piece ++ after.bytes) (ran : readNewBlockHashEntry v = .ok (entry,left)) :
    left = after ∧ EntryLayout piece entry := by
  obtain ⟨hash,number,rfl⟩ := shape
  obtain ⟨size,digits,headed,room,formed⟩ := readNewBlockHashEntry_ok ran
  have fits := v.fits
  rw [headed] at spelled fits
  rw [encodeList,List.append_assoc] at spelled
  obtain ⟨_,same⟩ := listHeader_same spelled room (by simp) fits
  rw [List.append_assoc] at same
  have small := back_fits fits
  obtain ⟨hashed,same⟩ := (IsItem.string entry.hash.toList).same (.string hash) same small
  obtain ⟨payload,rfl,_⟩ := formed.string
  obtain ⟨numbered,same⟩ := (IsItem.string payload).same (.string number) same (back_fits small)
  refine ⟨ByteView.ext_bytes same,encodeString payload,?_,formed⟩
  rw [fixedWire,hashed,numbered]

theorem EntryLayout.shape (laid : EntryLayout piece entry) : EntryShape piece := by
  obtain ⟨_,rfl,formed⟩ := laid
  obtain ⟨number,rfl,_⟩ := formed.string
  exact ⟨_,number,rfl⟩

theorem EntryShape.nonempty (shape : EntryShape piece) : piece ≠ [] := by
  obtain ⟨hash,number,rfl⟩ := shape
  exact encodeList_nonempty _

theorem decodeNewBlockHashes_ok (decoded : decodeNewBlockHashes v = .ok msg) :
    ∃ size,∃ view rest : ByteView,v.bytes = listHeader size ++ view.bytes ∧ size ≤ view.bytes.length ∧
      readAbove .kListLengthMismatch readNewBlockHashEntry 0 view.length view = .ok (msg.entries.items,rest) := by
  obtain ⟨⟨size,view⟩,headed,ran⟩ := bind_ok.mp decoded
  obtain ⟨⟨entries,rest⟩,read,ran⟩ := bind_ok.mp ran
  cases ran
  obtain ⟨spelled,room⟩ := (readListHeaderBytes_exact ..).mp headed
  exact ⟨size,view,rest,spelled,room,readItems_exact.mp read⟩

-- Neither the outer size nor the size of an entry is looked at, so the view has
-- to be a list of lists of two strings by itself.
theorem newBlockHashes_framed_iff (decoded : decodeNewBlockHashes v = .ok msg) :
    Framed decodeNewBlockHashes EntriesLayout v msg ↔
      ∃ pieces : List (List UInt8),v.bytes = encodeList pieces.flatten ∧ ∀ piece ∈ pieces,EntryShape piece := by
  obtain ⟨size,view,rest,headed,room,ran⟩ := decodeNewBlockHashes_ok decoded
  have taken {pieces : List (List UInt8)} (shapes : ∀ piece ∈ pieces,EntryShape piece) (back : ByteView)
      (spelled : view.bytes = pieces.flatten ++ back.bytes) :=
    readAbove_pieces (fun piece member _ _ _ _ => entry_taken (shapes piece member))
      (fun piece member => (shapes piece member).nonempty) (Nat.zero_le _) spelled ran
  constructor
  · rintro ⟨_,after,begins,_,pieces,rfl,laid⟩
    have shapes := pieces_all (fun piece entry (one : EntryLayout piece entry) => one.shape) laid
    have cut := framed_payload begins headed room
    obtain ⟨back,behind⟩ := ByteView.exists_behind cut
    obtain ⟨firsts,more,fuel,same,all,ended⟩ := taken shapes back (cut.trans (congrArg (pieces.flatten ++ ·) behind.symm))
    have none : more = [] := by
      have count := congrArg List.length same
      rw [← laid.length_eq,List.length_append,← all.length_eq] at count
      exact List.length_eq_zero_iff.mp (by omega)
    subst none
    have empty : after = [] := List.length_eq_zero_iff.mp (Nat.le_zero.mp (behind ▸ readAbove_nothing ended))
    exact ⟨pieces,by rw [begins,empty,List.append_nil],shapes⟩
  · rintro ⟨pieces,spelled,shapes⟩
    have cut := framed_payload (spelled.trans (List.append_nil _).symm) headed room
    obtain ⟨firsts,more,fuel,same,all,ended⟩ := taken shapes .empty cut
    rw [readAbove_done (by exact Nat.lt_irrefl 0)] at ended
    cases ended
    rw [List.append_nil] at same
    exact ⟨_,[],by rw [spelled,List.append_nil],⟨v,spelled,decoded⟩,pieces,rfl,same ▸ all⟩

-- What a decoder accepts is framed exactly if the size its outer header
-- announces is right, and so is that of an inner list whose size is dropped.
theorem messages_framed_iff (v : ByteView) :
    (∀ msg,decodeNewBlockHashes v = .ok msg → (Framed decodeNewBlockHashes EntriesLayout v msg ↔
      ∃ pieces : List (List UInt8),v.bytes = encodeList pieces.flatten ∧ ∀ piece ∈ pieces,EntryShape piece)) ∧
    (∀ msg,decodeGetBlockHeaders v = .ok msg → (Framed decodeGetBlockHeaders QueryLayout v msg ↔
      ∃ payload,v.bytes = encodeList payload ∧ QueryShape payload)) ∧
    (∀ msg,decodeBlockHeaders v = .ok msg → (Framed decodeBlockHeaders (RequestForm HeadersForm) v msg ↔ OneList v)) ∧
    (∀ msg,decodeGetReceipts v = .ok msg → (Framed decodeGetReceipts (RequestForm HashListForm) v msg ↔ OneList v)) ∧
    (∀ msg,decodeReceipts v = .ok msg → (Framed decodeReceipts (RequestForm ReceiptsLayout) v msg ↔
      ∃ payload,v.bytes = encodeList payload ∧ RequestShape ReceiptsShape payload)) ∧
    (∀ schemas msg,decodeGetReceiptsWith schemas v = .ok msg →
      (Framed (decodeGetReceiptsWith schemas) (GetReceiptsLayout schemas) v msg ↔ OneList v)) ∧
    (∀ schemas msg,decodeReceiptsWith schemas v = .ok msg →
      (Framed (decodeReceiptsWith schemas) (ReceiptsMessageLayout schemas) v msg ↔
        ∃ payload,v.bytes = encodeList payload ∧ ReceiptsMessageShape schemas payload)) ∧
    (∀ msg,decodeGetPooledTransactions v = .ok msg →
      (Framed decodeGetPooledTransactions (RequestForm HashListForm) v msg ↔ OneList v)) ∧
    (∀ msg,decodePooledTransactions v = .ok msg → (Framed decodePooledTransactions (RequestForm PooledForm) v msg ↔ OneList v)) ∧
    (∀ msg,decodeGetBlockBodies v = .ok msg → (Framed decodeGetBlockBodies (RequestForm HashListForm) v msg ↔ OneList v)) ∧
    (∀ msg,decodeBlockBodies v = .ok msg → (Framed decodeBlockBodies (RequestForm BodiesLayout) v msg ↔
      ∃ payload,v.bytes = encodeList payload ∧ RequestShape BodiesShape payload)) := by
  have hashes (msg : Request (StdVector Hash256)) (decoded : decodeRequest (fun _ => decodeHashList) v = .ok msg) :=
    request_framed_iff hashList_exact (fun _ _ formed => formed.list) decoded
  refine ⟨fun _ => newBlockHashes_framed_iff,fun _ => query_framed_iff,?_,hashes,fun _ => receipts_framed_iff,
    fun schemas _ => getReceiptsWith_framed_iff schemas,fun schemas _ => receiptsWith_framed_iff schemas,hashes,?_,hashes,fun _ => bodies_framed_iff⟩
  · intro msg
    exact request_framed_iff headers_exact fun _ _ formed => formed.list
  · intro msg
    exact request_framed_iff pooled_exact fun _ _ formed => formed.list

def noHeaders : ByteView := ⟨[0xC2,0x07,0xC0],by decide⟩

def noHashes : ByteView := ⟨[0xC0],by decide⟩

def oneHash : ByteView := ⟨[0xE3,0xE2,0xA0] ++ (List.replicate 32 0 ++ [0x05]),by decide⟩

theorem listed_messages_framed : Framed decodeBlockHeaders (RequestForm HeadersForm) noHeaders ⟨some 7,.empty⟩ ∧
    Framed decodeNewBlockHashes EntriesLayout oneHash ⟨.singleton ⟨.zeros 32,5⟩⟩ := by
  constructor
  · exact ((messages_framed_iff ..).2.2.1 ⟨some 7,.empty⟩ (by decide +kernel)).mpr ⟨[0x07,0xC0],rfl⟩
  · refine ((messages_framed_iff ..).1 ⟨.singleton ⟨.zeros 32,5⟩⟩ (by decide +kernel)).mpr
      ⟨[[0xE2,0xA0] ++ (List.replicate 32 0 ++ [0x05])],rfl,?_⟩
    exact List.forall_mem_singleton.mpr ⟨List.replicate 32 0,[0x05],by decide +kernel⟩

def twoLists : ByteView := ⟨[0xC0,0xC0],by decide⟩

theorem second_list_read : decodeBlockHeaders twoLists = .ok ⟨none,.empty⟩ ∧
    ∀ payload after,twoLists.bytes = encodeList payload ++ after →
      ∀ l : ByteView,l.bytes = encodeList payload → decodeBlockHeaders l ≠ .ok ⟨none,.empty⟩ := by
  refine ⟨by decide +kernel,?_⟩
  intro payload after begins l spelled
  have same : listHeader 0 ++ [0xC0] = listHeader payload.length ++ (payload ++ after) := by
    rw [← List.append_assoc]
    exact begins
  obtain ⟨none,_⟩ := listHeader_same same (Nat.zero_le _) (by simp) (by decide)
  have alone : l = noHashes := by
    apply ByteView.ext_bytes
    rw [spelled,List.length_eq_zero_iff.mp none.symm]
    rfl
  rw [alone]
  decide +kernel

end EvmRelay.Eth
