import EvmRelay.EthMessages

namespace EvmRelay.Eth
open Rlp RlpSpec Reader Codec

-- What each encoder puts on the wire; none if it refuses the content.

def startWire : Option Hash256 → Option (BitVec 64) → List UInt8
  | some hash,_ => fixedWire hash
  | none,some number => encodeScalar number.toNat
  | none,none => []

def queryFieldsWire (query : HeaderQuery) : List UInt8 :=
  startWire query.startHash query.startNumber ++ (encodeScalar query.maxHeaders.toNat ++
    (encodeScalar query.skip.toNat ++ encodeScalar query.reverse.toNat))

def queryWire (query : HeaderQuery) : Wire :=
  if query.startHash.isSome ∧ query.startNumber.isSome then none else some (encodeList (queryFieldsWire query))

def hashListWire (hashes : StdVector Hash256) : Wire := some (encodeList (hashes.items.flatMap fixedWire))

def headersWire (headers : StdVector BlockHeader) : Wire := some (encodeList (headers.items.flatMap blockHeaderWire))

def blockReceiptsWire (receipts : StdVector Receipt) : Wire := Wire.list (Wire.each receiptWire receipts.items)

def receiptsWire (blocks : StdVector (StdVector Receipt)) : Wire := Wire.list (Wire.each blockReceiptsWire blocks.items)

def rawWire (bytes : List UInt8) : Wire := if bytes = [] then none else some bytes

def pooledWire (txs : StdVector (StdVector UInt8)) : Wire := Wire.list (Wire.each (fun tx => rawWire tx.items) txs.items)

def transactionItem (tx : Transaction) : Wire :=
  (transactionWire tx).bind fun bytes => if tx.type = .kLegacy then rawWire bytes else some (encodeString bytes)

def transactionListWire (txs : StdVector Transaction) : Wire := Wire.list (Wire.each transactionItem txs.items)

def bodyWire (body : BlockBody) : Wire :=
  Wire.list (Wire.join (transactionListWire body.transactions) (headersWire body.ommers))

def bodiesWire (bodies : StdVector BlockBody) : Wire := Wire.list (Wire.each bodyWire bodies.items)

def requestWire (wire : α → Wire) (msg : Request α) : Wire :=
  match msg.requestId with
  | some requestId => Wire.list (Wire.join (some (encodeScalar requestId.toNat)) (wire msg.content))
  | none => wire msg.content

def newBlockWire (msg : NewBlockMessage) : Wire :=
  Wire.list (Wire.join
    (Wire.list (Wire.join (some (blockHeaderWire msg.header))
      (Wire.join (transactionListWire msg.transactions) (headersWire msg.ommers))))
    (some (encodeScalar msg.totalDifficulty.toNat)))

theorem start_writes : Writes (writeStart startHash startNumber) (some (startWire startHash startNumber)) := by
  cases startHash with
  | some hash => exact addBytes_writes _
  | none =>
    cases startNumber with
    | some number => exact addUint64_writes number
    | none => exact writes_nothing

theorem query_writes (query : HeaderQuery) : Writes (encodeGetBlockHeadersPayload query) (queryWire query) := by
  unfold encodeGetBlockHeadersPayload queryWire
  split_ifs with both
  · intro e after _
    constructor
    · intro wrong
      cases wrong
    · intro wrong
      cases wrong
  · exact (start_writes.join <| (addUint64_writes _).join <| (addUint64_writes _).join addBool_writes).list

theorem hashList_writes (hashes : StdVector Hash256) : Writes (encodeHashList hashes) (hashListWire hashes) :=
  (hashes_write hashes.items).list

theorem header_writes (header : BlockHeader) : Writes (addEncoded (encodeBlockHeader header)) (some (blockHeaderWire header)) := by
  apply addEncoded_writes
  · simp [blockHeaderWire,encodeList_nonempty]
  · intro bytes fits
    rw [encodeBlockHeader_exact header fits,Option.some.injEq]

theorem headers_writes (headers : StdVector BlockHeader) : Writes (encodeBlockHeadersPayload headers) (headersWire headers) := by
  have all := writes_each headers.items fun header _ => header_writes header
  rw [Wire.each_some] at all
  exact all.list

theorem receiptWire_some (receipt : Receipt) : receiptWire receipt ≠ some [] := by
  intro empty
  obtain ⟨payload,_,nothing⟩ := Option.map_eq_some_iff.mp empty
  exact encodeList_nonempty payload nothing

theorem receipts_writes (blocks : StdVector (StdVector Receipt)) : Writes (encodeReceiptsPayload blocks) (receiptsWire blocks) := by
  refine Writes.list (writes_each _ fun block _ => ?_)
  refine Writes.list (writes_each _ fun receipt _ => ?_)
  exact addEncoded_writes (receiptWire_some receipt) fun bytes fits => encodeReceipt_exact receipt fits

theorem pooled_writes (txs : StdVector (StdVector UInt8)) : Writes (encodePooledTransactionsPayload txs) (pooledWire txs) :=
  (writes_each txs.items fun tx _ => addRawBytes_writes tx.items).list

theorem transaction_writes (tx : Transaction) : Writes (writeTransaction tx) (transactionItem tx) := by
  apply encoded_writes fun bytes fits => encodeTransaction_exact tx fits
  · intro bytes
    split_ifs with legacy
    · exact addRawBytes_writes bytes
    · exact addBytes_writes bytes
  · intro bytes item formed
    split at formed
    · exact rawForm_longer bytes item formed
    · cases formed
      have longer := encodeString_length bytes
      omega

theorem transactionList_writes (txs : StdVector Transaction) : Writes (encodeTransactionList txs) (transactionListWire txs) :=
  (writes_each txs.items fun tx _ => transaction_writes tx).list

theorem body_writes (body : BlockBody) : Writes (encodeBlockBody body) (bodyWire body) :=
  ((transactionList_writes body.transactions).join (headers_writes body.ommers)).list

theorem bodies_writes (bodies : StdVector BlockBody) : Writes (encodeBodies bodies) (bodiesWire bodies) :=
  (writes_each bodies.items fun body _ => body_writes body).list

theorem encodeRequest_exact {wire : α → Wire} (writes : ∀ content,Writes (payload content) (wire content))
    (msg : Request α) (fits : bytes.length < sizeLimit) :
    encodeRequest payload msg = .ok bytes ↔ requestWire wire msg = some bytes := by
  unfold encodeRequest requestWire
  cases msg.requestId with
  | some requestId => exact finalizeEncoding_exact ((addUint64_writes requestId).join (writes msg.content)).list fits
  | none => exact finalizeEncoding_exact (writes msg.content) fits

theorem encodeNewBlock_exact (msg : NewBlockMessage) (fits : bytes.length < sizeLimit) :
    encodeNewBlock msg = .ok bytes ↔ newBlockWire msg = some bytes := by
  have block := ((header_writes msg.header).join ((transactionList_writes msg.transactions).join (headers_writes msg.ommers))).list
  exact finalizeEncoding_exact (block.join (addWord_writes msg.totalDifficulty)).list fits

-- What each decoder accepts, as a form of the bytes it takes.

theorem hash_exact : Exact (orError (readFixed count) error) fun piece (hash : FixedBytes count) => piece = fixedWire hash :=
  orError_exact error (readFixed_exact count)

def HashListForm : List UInt8 → StdVector Hash256 → Prop := ListForm fun piece hash => piece = fixedWire hash

theorem hashList_exact : Exact decodeHashList HashListForm :=
  readListOf_exact hash_exact fun _ _ same => same ▸ encodeString_nonempty _

def HeadersForm : List UInt8 → StdVector BlockHeader → Prop := ListForm (ObjectForm decodeBlockHeader)

theorem headers_exact : Exact decodeBlockHeadersPayload HeadersForm :=
  readListOf_exact (readItemWith_exact _) fun _ _ formed => formed.nonempty

def BlockReceiptsForm : List UInt8 → StdVector Receipt → Prop := ListForm (ObjectForm decodeReceipt)

def ReceiptsForm : List UInt8 → StdVector (StdVector Receipt) → Prop := ListForm BlockReceiptsForm

theorem receipts_exact : Exact decodeReceiptsPayload ReceiptsForm :=
  readListOf_exact (readListOf_exact (readItemWith_exact _) fun _ _ formed => formed.nonempty)
    fun _ _ formed => formed.nonempty

def PooledForm : List UInt8 → StdVector (StdVector UInt8) → Prop :=
  ListForm fun piece tx => piece = tx.items ∧ IsItem piece

theorem pooled_exact : Exact decodePooledTransactionsPayload PooledForm := by
  have item : Exact (readItemWith fun item => .ok item.toVector) fun piece (tx : StdVector UInt8) => piece = tx.items ∧ IsItem piece := by
    apply (readItemWith_exact _).of_iff
    intro piece tx
    constructor
    · rintro ⟨whole,item,rfl,same⟩
      cases same
      exact ⟨rfl,whole⟩
    · rintro ⟨rfl,whole⟩
      exact ⟨whole,.ofVector tx,rfl,rfl⟩
  exact readListOf_exact item fun _ _ formed => formed.2.nonempty

def TransactionForm (piece : List UInt8) (tx : Transaction) : Prop :=
  (∃ raw : ByteView,raw.bytes ≠ [] ∧ piece = encodeString raw.bytes ∧ decodeTransaction raw = .ok tx) ∨
  ((∃ payload,piece = encodeList payload) ∧ ObjectForm decodeTransaction piece tx)

theorem TransactionForm.item (formed : TransactionForm piece tx) : IsItem piece := by
  rcases formed with ⟨raw,_,rfl,_⟩ | ⟨_,whole,_⟩
  · exact .string _
  · exact whole

theorem readTransaction_exact : Exact readTransaction TransactionForm := by
  intro v tx rest
  constructor
  · intro ran
    obtain ⟨h,peeked,ran⟩ := bind_ok.mp ran
    split_ifs at ran with raw
    · obtain ⟨⟨rawBytes,view⟩,read,ran⟩ := bind_ok.mp ran
      obtain ⟨_,decoded,same⟩ := bind_ok.mp ran
      cases same
      obtain ⟨_,spelled,rfl⟩ := (orError_exact _ readByteBuffer_exact v rawBytes rest).mp read
      obtain ⟨offset,found,_⟩ := string_layout spelled
      cases peeked.symm.trans found
      exact ⟨_,spelled,Or.inl ⟨.ofVector rawBytes,List.length_pos_iff.mp raw.2,rfl,decoded⟩⟩
    · obtain ⟨piece,spelled,whole,item,rfl,decoded⟩ := (readItemWith_exact _ v tx rest).mp ran
      refine ⟨_,spelled,Or.inr ⟨?_,whole,item,rfl,decoded⟩⟩
      generalize bytes : item.bytes = piece at whole spelled
      cases whole with
      | list payload => exact ⟨payload,rfl⟩
      | string payload =>
        obtain ⟨offset,found,_⟩ := string_layout spelled
        cases peeked.symm.trans found
        -- Only the empty string is left, which is no transaction.
        have empty : payload = [] := by
          cases payload with
          | nil => rfl
          | cons byte more => exact absurd ⟨Bool.false_ne_true,Nat.succ_pos _⟩ raw
        subst empty
        unfold decodeTransaction at decoded
        rw [bytes] at decoded
        cases decoded
  · rintro ⟨piece,spelled,formed⟩
    rcases formed with ⟨raw,some,rfl,decoded⟩ | ⟨⟨payload,rfl⟩,formed⟩
    · obtain ⟨offset,peeked,_⟩ := string_layout spelled
      have read := orError_reads .kUnexpectedString (readByteBuffer_reads raw.toVector) v rest spelled
      refine bind_ok.mpr ⟨_,peeked,?_⟩
      rw [if_pos ⟨Bool.false_ne_true,List.length_pos_iff.mpr some⟩]
      exact bind_ok.mpr ⟨_,read,bind_ok.mpr ⟨tx,decoded,rfl⟩⟩
    · refine bind_ok.mpr ⟨_,peekHeader_encodeList spelled,?_⟩
      rw [if_neg (fun raw => raw.1 rfl)]
      exact (readItemWith_exact _).reads formed v rest spelled

def TransactionListForm : List UInt8 → StdVector Transaction → Prop := ListForm TransactionForm

theorem transactionList_exact : Exact decodeTransactionList TransactionListForm :=
  readListOf_exact readTransaction_exact fun _ _ formed => formed.item.nonempty

-- Known fields, and whole items behind them that nothing is taken from.
def OpenListForm (form : List UInt8 → α → Prop) (piece : List UInt8) (value : α) : Prop :=
  ∃ fields,∃ ignored : List (List UInt8),piece = encodeList (fields ++ ignored.flatten) ∧ form fields value ∧
    ∀ item ∈ ignored,IsItem item

theorem openBody_sound {form : List UInt8 → α → Prop} (exact_ : Exact fields form)
    (ran : (do let value ← fields; let _ ← readItems consumeNextItem target; return value : Decoder α) v = .ok (value,rest)) :
    ∃ piece,∃ ignored : List (List UInt8),v.bytes = piece ++ ignored.flatten ++ rest.bytes ∧ form piece value ∧
      ∀ item ∈ ignored,IsItem item := by
  obtain ⟨found,view,one,ran⟩ := bind_ok_iff.mp ran
  obtain ⟨skipped,left,two,ran⟩ := bind_ok_iff.mp ran
  cases ran
  obtain ⟨piece,spelled,formed⟩ := (exact_ v value view).mp one
  obtain ⟨ignored,items,behind,_⟩ := readAbove_sound consumeNextItem_exact (readItems_exact.mp two)
  refine ⟨piece,ignored,?_,formed,pieces_all (fun _ _ item => item.2) items⟩
  rw [List.append_assoc]
  exact spelled.trans (congrArg (piece ++ ·) behind)

theorem readOpenList_exact {form : List UInt8 → α → Prop} (exact_ : Exact fields form) :
    Exact (readOpenList fields) (OpenListForm form) := by
  intro v value rest
  constructor
  · intro ran
    have suffix (target : Nat) (v : ByteView) (value : α) (rest : ByteView)
        (ran : (do let value ← fields; let _ ← readItems consumeNextItem target; return value : Decoder α) v = .ok (value,rest)) :
        ∃ taken,v.bytes = taken ++ rest.bytes := by
      obtain ⟨piece,ignored,cut,_⟩ := openBody_sound exact_ ran
      exact ⟨_,cut⟩
    obtain ⟨payload,view,spelled,behind,inside⟩ := readList_sound suffix ran
    obtain ⟨piece,ignored,cut,formed,items⟩ := openBody_sound exact_ inside
    have same := List.append_cancel_right (behind.symm.trans cut)
    exact ⟨_,spelled,piece,ignored,congrArg encodeList same,formed,items⟩
  · rintro ⟨_,spelled,piece,ignored,rfl,formed,items⟩
    obtain ⟨view,opened,behind⟩ := encodeList_opens spelled
    refine readList_complete opened behind ?_
    rw [List.append_assoc] at behind
    obtain ⟨left,behind,after⟩ := view.cut behind
    obtain ⟨views,all⟩ := items_views items (by
      have fits := left.fits
      rw [after,List.length_append] at fits
      omega)
    have read := exact_.reads formed view left behind
    have few : ignored.length ≤ left.length := by
      have bound := items_le_flatten items
      rw [ByteView.length,after,List.length_append]
      omega
    have skipped := readItems_exact.mpr (readAbove_reads (all.imp fun _ _ one => consumeNextItem_exact.reads one)
        (fun piece member => (items piece member).nonempty) few after rfl)
    exact bind_ok_iff.mpr ⟨value,left,read,bind_ok_iff.mpr ⟨views,rest,skipped,rfl⟩⟩

def BodyFieldsForm (piece : List UInt8) (body : BlockBody) : Prop :=
  ∃ txs ommers,piece = txs ++ ommers ∧ TransactionListForm txs body.transactions ∧ HeadersForm ommers body.ommers

def BodyForm : List UInt8 → BlockBody → Prop := OpenListForm BodyFieldsForm

theorem body_exact : Exact decodeBlockBody BodyForm := by
  apply readOpenList_exact
  apply (transactionList_exact.bind fun transactions => headers_exact.map (BlockBody.mk transactions)).of_iff
  intro piece body
  constructor
  · rintro ⟨txs,ommers,transactions,rfl,one,headers,two,rfl⟩
    exact ⟨txs,ommers,rfl,one,two⟩
  · rintro ⟨txs,ommers,rfl,one,two⟩
    exact ⟨txs,ommers,body.transactions,rfl,one,body.ommers,two,rfl⟩

theorem OpenListForm.list (formed : OpenListForm form piece value) : ∃ payload,piece = encodeList payload := by
  obtain ⟨_,_,spelled,_⟩ := formed
  exact ⟨_,spelled⟩

def BodiesForm : List UInt8 → StdVector BlockBody → Prop := ListForm BodyForm

theorem bodies_exact : Exact decodeBodies BodiesForm := by
  apply readListOf_exact body_exact
  intro piece body formed
  obtain ⟨payload,rfl⟩ := formed.list
  exact encodeList_nonempty payload

def BlockFieldsForm (piece : List UInt8) (block : BlockHeader × StdVector Transaction × StdVector BlockHeader) : Prop :=
  ∃ header txs ommers,piece = header ++ (txs ++ ommers) ∧ ObjectForm decodeBlockHeader header block.1 ∧
    TransactionListForm txs block.2.1 ∧ HeadersForm ommers block.2.2

theorem block_exact : Exact readBlock (OpenListForm BlockFieldsForm) := by
  apply readOpenList_exact
  apply ((readItemWith_exact decodeBlockHeader).bind fun header => transactionList_exact.bind fun txs =>
    headers_exact.map fun ommers => (header,txs,ommers)).of_iff
  intro piece block
  constructor
  · rintro ⟨header,_,_,rfl,one,txs,ommers,_,rfl,two,_,three,rfl⟩
    exact ⟨header,txs,ommers,rfl,one,two,three⟩
  · rintro ⟨header,txs,ommers,rfl,one,two,three⟩
    exact ⟨header,_,_,rfl,one,txs,ommers,_,rfl,two,_,three,rfl⟩

def NewBlockFieldsForm (piece : List UInt8) (msg : NewBlockMessage) : Prop :=
  ∃ block difficulty,piece = block ++ difficulty ∧ OpenListForm BlockFieldsForm block (msg.header,msg.transactions,msg.ommers) ∧
    UnsignedForm difficulty msg.totalDifficulty

theorem newBlock_exact : Exact readNewBlock (OpenListForm NewBlockFieldsForm) := by
  apply readOpenList_exact
  apply (block_exact.bind fun block => (orError_exact .kUnexpectedString readWord_exact).map
    (NewBlockMessage.mk block.1 block.2.1 block.2.2)).of_iff
  intro piece msg
  constructor
  · rintro ⟨block,difficulty,_,rfl,one,_,two,rfl⟩
    exact ⟨block,difficulty,rfl,one,two⟩
  · rintro ⟨block,difficulty,rfl,one,two⟩
    exact ⟨block,difficulty,_,rfl,one,_,two,rfl⟩

def StartForm (piece : List UInt8) (start : Option Hash256 × Option (BitVec 64)) : Prop :=
  (∃ hash,start = (some hash,none) ∧ piece = fixedWire hash) ∨ (∃ number,start = (none,some number) ∧ UnsignedForm piece number)

theorem start_exact : Exact readStart StartForm := by
  intro v start rest
  constructor
  · intro ran
    obtain ⟨h,peeked,ran⟩ := bind_ok.mp ran
    split at ran
    · cases ran
    split at ran
    · obtain ⟨⟨hash,view⟩,read,same⟩ := bind_ok.mp ran
      cases same
      obtain ⟨piece,spelled,formed⟩ := (hash_exact v hash rest).mp read
      exact ⟨piece,spelled,Or.inl ⟨hash,rfl,formed⟩⟩
    · obtain ⟨⟨number,view⟩,read,same⟩ := bind_ok.mp ran
      cases same
      obtain ⟨piece,spelled,formed⟩ := (orError_exact _ readUint64_exact v number rest).mp read
      exact ⟨piece,spelled,Or.inr ⟨number,rfl,formed⟩⟩
  · rintro ⟨piece,spelled,formed⟩
    rcases formed with ⟨hash,rfl,rfl⟩ | ⟨number,rfl,formed⟩
    · obtain ⟨offset,peeked,_⟩ := string_layout spelled
      refine bind_ok.mpr ⟨_,peeked,?_⟩
      rw [if_neg Bool.false_ne_true,if_pos hash.toList_length]
      exact bind_ok.mpr ⟨_,orError_reads _ (readFixed_reads hash) v rest spelled,rfl⟩
    · obtain ⟨payload,same,short⟩ := formed.string
      have narrow := byteLength_le_eight number.toNat number.isLt
      obtain ⟨offset,peeked,_⟩ := string_layout (same ▸ spelled)
      have other : payload.length ≠ 32 := by omega
      refine bind_ok.mpr ⟨_,peeked,?_⟩
      rw [if_neg Bool.false_ne_true,if_neg other]
      exact bind_ok.mpr ⟨_,(orError_exact _ readUint64_exact).reads formed v rest spelled,rfl⟩

def QueryForm (piece : List UInt8) (query : HeaderQuery) : Prop :=
  ∃ start maxHeaders skip reverse,piece = start ++ (maxHeaders ++ (skip ++ reverse)) ∧
    StartForm start (query.startHash,query.startNumber) ∧ UnsignedForm maxHeaders query.maxHeaders ∧
    UnsignedForm skip query.skip ∧ BoolForm reverse query.reverse

theorem query_exact : Exact decodeGetBlockHeadersPayload QueryForm := by
  have fields := start_exact.bind fun start => (orError_exact .kUnexpectedString readUint64_exact).bind fun maxHeaders =>
    (orError_exact .kUnexpectedString readUint64_exact).bind fun skip =>
    (orError_exact .kUnexpectedString readBool_exact).map (HeaderQuery.mk start.1 start.2 maxHeaders skip)
  apply fields.of_iff
  intro piece query
  constructor
  · rintro ⟨start,_,found,rfl,one,maxHeaders,_,most,rfl,two,skip,reverse,gap,rfl,three,backwards,four,rfl⟩
    exact ⟨start,maxHeaders,skip,reverse,rfl,one,two,three,four⟩
  · rintro ⟨start,maxHeaders,skip,reverse,rfl,one,two,three,four⟩
    exact ⟨start,_,(query.startHash,query.startNumber),rfl,one,maxHeaders,_,query.maxHeaders,rfl,two,skip,reverse,query.skip,rfl,
      three,query.reverse,four,rfl⟩

section requests
variable {view rest : ByteView}

theorem requestId_list (spelled : v.bytes = encodeList payload ++ rest.bytes) : consumeEth66RequestId v = .ok (none,v) := by
  unfold consumeEth66RequestId
  cases read : readUint64 v with
  | error error => rfl
  | ok step =>
    obtain ⟨piece,string,formed⟩ := (readUint64_exact v step.1 step.2).mp read
    obtain ⟨bytes,rfl,_⟩ := formed.string
    exact (string_not_list string spelled).elim

theorem requestId_strings (spelled : v.bytes = encodeString first ++ view.bytes) (string : view.bytes = encodeString second ++ rest.bytes) :
    consumeEth66RequestId v = .ok (none,v) := by
  unfold consumeEth66RequestId
  cases read : readUint64 v with
  | error error => rfl
  | ok step =>
    obtain ⟨found,probe⟩ := step
    obtain ⟨piece,taken,formed⟩ := (readUint64_exact v found probe).mp read
    obtain ⟨bytes,rfl,_⟩ := formed.string
    have same : probe = view := by
      cases (readBytes_complete taken).symm.trans (readBytes_complete spelled)
      rfl
    obtain ⟨offset,peeked,_⟩ := string_layout string
    simp [same,peeked]

theorem requestId_some (formed : UnsignedForm piece requestId) (spelled : v.bytes = piece ++ view.bytes)
    (listed : view.bytes = encodeList payload ++ rest.bytes) : consumeEth66RequestId v = .ok (some requestId,view) := by
  unfold consumeEth66RequestId
  rw [readUint64_exact.reads formed v view spelled]
  simp [peekHeader_encodeList listed]

theorem requestId_cases (ran : consumeEth66RequestId v = .ok (found,view)) : (found = none ∧ view = v) ∨
    ∃ requestId piece,found = some requestId ∧ v.bytes = piece ++ view.bytes ∧ UnsignedForm piece requestId := by
  unfold consumeEth66RequestId at ran
  split at ran
  · cases ran
    exact Or.inl ⟨rfl,rfl⟩
  rename_i candidate probe read
  split at ran
  · cases ran
    exact Or.inl ⟨rfl,rfl⟩
  split at ran
  · cases ran
    obtain ⟨piece,spelled,formed⟩ := (readUint64_exact v candidate view).mp read
    exact Or.inr ⟨candidate,piece,rfl,spelled,formed⟩
  · cases ran
    exact Or.inl ⟨rfl,rfl⟩

theorem finish_ok : finish v message = .ok found ↔ v = .empty ∧ message = found := by
  unfold finish
  split_ifs with finished
  · simp [show v = .empty from ByteView.ext_bytes ((isFinished_iff v).mp finished)]
  · have other : v ≠ .empty := fun same => finished ((isFinished_iff v).mpr (same ▸ rfl))
    simp [other]

theorem exact_whole {read : Decoder α} (exact_ : Exact read form) : read v = .ok (value,.empty) ↔ form v.bytes value := by
  rw [exact_ v value .empty]
  constructor
  · rintro ⟨piece,whole,formed⟩
    rw [show v.bytes = piece from whole.trans (List.append_nil _)]
    exact formed
  · exact fun formed => ⟨_,(List.append_nil _).symm,formed⟩

-- A header whose size only has to fit, in front of all that follows.
theorem listHeader_whole {next : Nat × ByteView → Except DecodingError α} {form : List UInt8 → Prop}
    (whole : ∀ size view,next (size,view) = .ok value ↔ form view.bytes) : readListHeaderBytes v >>= next = .ok value ↔
      ∃ size payload,v.bytes = listHeader size ++ payload ∧ size ≤ payload.length ∧ form payload := by
  constructor
  · intro ran
    obtain ⟨⟨size,view⟩,headed,ran⟩ := bind_ok.mp ran
    obtain ⟨spelled,room⟩ := (readListHeaderBytes_exact ..).mp headed
    exact ⟨size,view.bytes,spelled,room,(whole size view).mp ran⟩
  · rintro ⟨size,_,spelled,room,formed⟩
    obtain ⟨view,headed,rfl⟩ := listHeader_reads spelled room
    exact bind_ok.mpr ⟨_,headed,(whole size view).mpr formed⟩

-- A decoder of requests: an optional id and a payload that ends with the view.
theorem decodeRequest_ok {msg : Request α} {form : List UInt8 → Prop} (whole : ∀ view,form view.bytes ↔
      ∃ left,consumeEth66RequestId view = .ok (msg.requestId,left) ∧ payload msg.requestId left = .ok (msg.content,.empty)) :
    decodeRequest payload v = .ok msg ↔
      ∃ size payload,v.bytes = listHeader size ++ payload ∧ size ≤ payload.length ∧ form payload := by
  apply listHeader_whole
  intro size view
  simp only [whole,bind_ok,Prod.exists,finish_ok]
  constructor
  · rintro ⟨found,left,taken,content,rest,read,rfl,rfl⟩
    exact ⟨left,taken,read⟩
  · rintro ⟨left,taken,read⟩
    exact ⟨_,left,taken,_,_,read,rfl,rfl⟩

def IdForm (piece : List UInt8) : Option (BitVec 64) → Prop
  | none => piece = []
  | some requestId => UnsignedForm piece requestId

def RequestForm (form : List UInt8 → α → Prop) (payload : List UInt8) (msg : Request α) : Prop :=
  ∃ id content,payload = id ++ content ∧ IdForm id msg.requestId ∧ form content msg.content

theorem request_exact {read : Decoder α} (exact_ : Exact read form)
    (lists : ∀ piece value,form piece value → ∃ payload,piece = encodeList payload) (v : ByteView) (msg : Request α) :
    decodeRequest (fun _ => read) v = .ok msg ↔
      ∃ size payload,v.bytes = listHeader size ++ payload ∧ size ≤ payload.length ∧ RequestForm form payload msg := by
  apply decodeRequest_ok
  intro view
  symm
  constructor
  · rintro ⟨left,taken,read⟩
    have formed := (exact_whole exact_).mp read
    rcases requestId_cases taken with ⟨none,rfl⟩ | ⟨requestId,piece,some,behind,numbered⟩
    · exact ⟨[],_,rfl,none ▸ rfl,formed⟩
    · exact ⟨piece,_,behind,some ▸ numbered,formed⟩
  · rintro ⟨id,content,whole,identified,formed⟩
    obtain ⟨left,front,rfl⟩ := view.cut whole
    obtain ⟨payload,same⟩ := lists _ msg.content formed
    have listed : left.bytes = encodeList payload ++ ByteView.empty.bytes := same.trans (List.append_nil _).symm
    refine ⟨left,?_,(exact_whole exact_).mpr formed⟩
    generalize msg.requestId = requestId at identified ⊢
    cases requestId with
    | none =>
      cases identified
      rw [ByteView.ext_bytes front]
      exact requestId_list listed
    | some requestId => exact requestId_some identified front listed

theorem QueryForm.strings (formed : QueryForm piece query) : ∃ start maxHeaders skip reverse,
    piece = encodeString start ++ (encodeString maxHeaders ++ (encodeString skip ++ encodeString reverse)) := by
  obtain ⟨start,maxHeaders,skip,reverse,rfl,one,two,three,four⟩ := formed
  obtain ⟨second,rfl,_⟩ := two.string
  obtain ⟨third,rfl,_⟩ := three.string
  obtain ⟨fourth,rfl⟩ := four.string
  rcases one with ⟨hash,_,rfl⟩ | ⟨number,_,one⟩
  · exact ⟨_,_,_,_,rfl⟩
  · obtain ⟨first,rfl,_⟩ := one.string
    exact ⟨_,_,_,_,rfl⟩

-- With a request id the inner header, too, only has to fit.
def QueryRequestForm (payload : List UInt8) (msg : GetBlockHeadersMessage) : Prop :=
  match msg.requestId with
  | none => QueryForm payload msg.content
  | some requestId => ∃ id size fields,payload = id ++ (listHeader size ++ fields) ∧ size ≤ fields.length ∧
      UnsignedForm id requestId ∧ QueryForm fields msg.content

theorem queryRequest_exact (v : ByteView) (msg : GetBlockHeadersMessage) : decodeGetBlockHeaders v = .ok msg ↔
    ∃ size payload,v.bytes = listHeader size ++ payload ∧ size ≤ payload.length ∧ QueryRequestForm payload msg := by
  apply decodeRequest_ok
  intro view
  unfold QueryRequestForm readQuery
  symm
  constructor
  · rintro ⟨left,taken,read⟩
    rcases requestId_cases taken with ⟨none,rfl⟩ | ⟨requestId,id,some,behind,numbered⟩
    · rw [none] at read ⊢
      exact (exact_whole query_exact).mp read
    · rw [some] at read ⊢
      obtain ⟨inner,within,headed,read⟩ := bind_ok_iff.mp read
      obtain ⟨listed,fits⟩ := (readListHeaderBytes_exact ..).mp headed
      exact ⟨id,inner,_,behind.trans (congrArg (id ++ ·) listed),fits,numbered,(exact_whole query_exact).mp read⟩
  · intro formed
    cases some : msg.requestId with
    | none =>
      rw [some] at formed
      obtain ⟨start,maxHeaders,skip,reverse,same⟩ := formed.strings
      obtain ⟨left,front,inside⟩ := view.cut same
      obtain ⟨rest,inside,_⟩ := left.cut inside
      exact ⟨view,requestId_strings front inside,(exact_whole query_exact).mpr formed⟩
    | some requestId =>
      rw [some] at formed
      obtain ⟨id,inner,fields,whole,fits,numbered,formed⟩ := formed
      obtain ⟨left,behind,listed⟩ := view.cut whole
      obtain ⟨within,headed,rfl⟩ := listHeader_reads listed fits
      obtain ⟨rest,cut,_⟩ := left.cut (listed.trans (listHeader_cut fits))
      exact ⟨left,requestId_some numbered behind cut,bind_ok_iff.mpr ⟨_,_,headed,(exact_whole query_exact).mpr formed⟩⟩

end requests
end EvmRelay.Eth
