import EvmRelay.EthWire

namespace EvmRelay.Eth
open Rlp RlpSpec Reader Codec

-- The message has a wire form, and where that fits in memory, encoding gives it
-- and decoding it gives back this message.
def RoundTrips (encode : μ → Except EncodingError (List UInt8)) (decode : ByteView → Except DecodingError μ) (wire : μ → Wire)
    (sent returned : μ) : Prop :=
  ∃ bytes,wire sent = some bytes ∧ ∀ fits : bytes.length < sizeLimit,encode sent = .ok bytes ∧ decode ⟨bytes,fits⟩ = .ok returned

def normalBody (body : BlockBody) : BlockBody := ⟨body.transactions.map normalTransaction,body.ommers⟩

def normalBlock (msg : NewBlockMessage) : NewBlockMessage :=
  { msg with transactions := msg.transactions.map normalTransaction }

def Encodable (txs : StdVector Transaction) : Prop := ∀ tx ∈ txs.items,tx.type ≠ .kOpDeposit

def Formed (wire : Wire) (form : List UInt8 → Prop) : Prop := ∃ bytes,wire = some bytes ∧ (bytes.length < sizeLimit → form bytes)

theorem Formed.list (values : StdVector α)
    (each : ∀ item ∈ values.items,Formed (wire item) fun piece => form piece (normal item)) :
    Formed (Wire.list (Wire.each wire values.items)) fun bytes => ListForm form bytes (values.map normal) := by
  obtain ⟨payload,written⟩ := Wire.each_total fun item member => by
    obtain ⟨piece,written,_⟩ := each item member
    exact ⟨piece,written⟩
  refine ⟨encodeList payload,by rw [written]; rfl,?_⟩
  intro fits
  rw [encodeList,List.length_append] at fits
  refine ListForm.of_wire wire normal values written ?_
  intro item member piece spelled shorter
  obtain ⟨bytes,same,formed⟩ := each item member
  cases spelled.symm.trans same
  exact formed (by omega)

theorem Formed.same (values : StdVector α) (each : ∀ item ∈ values.items,Formed (wire item) fun piece => form piece item) :
    Formed (Wire.list (Wire.each wire values.items)) fun bytes => ListForm form bytes values := by
  have formed : Formed _ fun bytes => ListForm form bytes (values.map id) := Formed.list values each
  rwa [StdVector.map_id] at formed

theorem Formed.join (one : Formed first front) (two : Formed second back) :
    Formed (Wire.join first second) fun bytes => ∃ head tail,bytes = head ++ tail ∧ front head ∧ back tail := by
  obtain ⟨head,rfl,leads⟩ := one
  obtain ⟨tail,rfl,follows⟩ := two
  refine ⟨head ++ tail,rfl,?_⟩
  intro fits
  exact ⟨head,tail,rfl,leads (front_fits fits),follows (back_fits fits)⟩

theorem Formed.wrapped (payload : Formed wire form) :
    Formed (Wire.list wire) fun bytes => ∃ inside,bytes = encodeList inside ∧ form inside := by
  obtain ⟨inside,rfl,formed⟩ := payload
  refine ⟨encodeList inside,rfl,?_⟩
  intro fits
  exact ⟨inside,rfl,formed (encodeList_shorter fits)⟩

theorem hashes_formed : Formed (hashListWire hashes) fun bytes => HashListForm bytes hashes := by
  have one (hash : Hash256) : Formed (some (fixedWire hash)) fun piece => piece = fixedWire hash := ⟨_,rfl,fun _ => rfl⟩
  have formed := Formed.same hashes fun hash _ => one hash
  rwa [Wire.each_some] at formed

theorem header_formed (header : BlockHeader) :
    Formed (some (blockHeaderWire header)) fun piece => ObjectForm decodeBlockHeader piece header :=
  ⟨_,rfl,fun fits => ⟨.list _,⟨_,fits⟩,rfl,decodeBlockHeader_wire header rfl⟩⟩

theorem headers_formed (headers : StdVector BlockHeader) : Formed (headersWire headers) fun bytes => HeadersForm bytes headers := by
  have formed := Formed.same headers fun header _ => header_formed header
  rwa [Wire.each_some] at formed

theorem receipt_formed (single : receipt.stateRoot.isSome ≠ receipt.status.isSome) :
    Formed (receiptWire receipt) fun piece => ObjectForm decodeReceipt piece receipt := by
  have normal : normalReceipt receipt = receipt := by
    obtain ⟨stateRoot,status,_,_,_⟩ := receipt
    cases stateRoot with
    | none => rfl
    | some root =>
      cases status with
      | none => rfl
      | some status => exact absurd rfl single
  have head : ∃ bytes,receiptHeadWire receipt = some bytes := by
    unfold receiptHeadWire
    cases root : receipt.stateRoot with
    | some root => exact ⟨_,rfl⟩
    | none =>
      cases status : receipt.status with
      | some status => exact ⟨_,rfl⟩
      | none => exact absurd (by simp [root,status]) single
  obtain ⟨bytes,written⟩ := head
  have wire : receiptWire receipt = some (encodeList (bytes ++ receiptTailWire receipt)) := by
    rw [receiptWire,written]
    rfl
  refine ⟨_,wire,fun fits => ⟨.list _,⟨_,fits⟩,rfl,?_⟩⟩
  rw [decodeReceipt_wire receipt wire,normal]

theorem receipts_formed
    (single : ∀ block ∈ blocks.items,∀ receipt ∈ block.items,receipt.stateRoot.isSome ≠ receipt.status.isSome) :
    Formed (receiptsWire blocks) fun bytes => ReceiptsForm bytes blocks :=
  Formed.same blocks fun block member => Formed.same block fun receipt inside => receipt_formed (single block member receipt inside)

theorem pooled_formed (items : ∀ tx ∈ txs.items,IsItem tx.items) :
    Formed (pooledWire txs) fun bytes => PooledForm bytes txs := by
  refine Formed.same txs fun tx member => ⟨tx.items,?_,fun _ => ⟨rfl,items tx member⟩⟩
  exact if_neg (items tx member).nonempty

theorem transaction_formed (typed : tx.type ≠ .kOpDeposit) :
    Formed (transactionItem tx) fun piece => TransactionForm piece (normalTransaction tx) := by
  have decoded {bytes : List UInt8} (written : transactionWire tx = some bytes) (fits : bytes.length < sizeLimit) :
      decodeTransaction ⟨bytes,fits⟩ = .ok (normalTransaction tx) := decodeTransaction_wire written
  -- A typed transaction is sent as a string around its bytes.
  have enveloped {byte : UInt8} {more : List UInt8} (written : transactionWire tx = some (byte :: more))
      (other : tx.type ≠ .kLegacy) : Formed (transactionItem tx) fun piece => TransactionForm piece (normalTransaction tx) := by
    refine ⟨encodeString (byte :: more),?_,?_⟩
    · rw [transactionItem,written,Option.bind_some,if_neg other]
    · intro fits
      have longer := encodeString_length (byte :: more)
      exact Or.inl ⟨⟨byte :: more,by omega⟩,List.cons_ne_nil _ _,rfl,decoded written (by omega)⟩
  cases kind : tx.type with
  | kLegacy =>
    have written : transactionWire tx = some (encodeList (legacyFieldsWire tx)) := by rw [transactionWire,kind]
    refine ⟨_,?_,fun fits => Or.inr ⟨⟨_,rfl⟩,.list _,⟨_,fits⟩,rfl,decoded written fits⟩⟩
    rw [transactionItem,written,Option.bind_some,if_pos kind]
    exact if_neg (encodeList_nonempty _)
  | kOpDeposit => exact absurd kind typed
  | _ => exact enveloped (by rw [transactionWire,kind]) (by rw [kind]; decide)

theorem transactions_formed (txs : StdVector Transaction) (encodable : Encodable txs) :
    Formed (transactionListWire txs) fun bytes => TransactionListForm bytes (txs.map normalTransaction) :=
  Formed.list txs fun tx member => transaction_formed (encodable tx member)

theorem body_formed (body : BlockBody) (encodable : Encodable body.transactions) :
    Formed (bodyWire body) fun bytes => BodyForm bytes (normalBody body) := by
  obtain ⟨bytes,written,formed⟩ := ((transactions_formed body.transactions encodable).join (headers_formed body.ommers)).wrapped
  refine ⟨bytes,written,?_⟩
  intro fits
  obtain ⟨_,rfl,txs,ommers,rfl,one,two⟩ := formed fits
  exact ⟨txs ++ ommers,[],by simp,⟨txs,ommers,rfl,one,two⟩,by simp⟩

theorem bodies_formed (encodable : ∀ body ∈ bodies.items,Encodable body.transactions) :
    Formed (bodiesWire bodies) fun bytes => BodiesForm bytes (bodies.map normalBody) :=
  Formed.list bodies fun body member => body_formed body (encodable body member)

theorem request_read {read : Decoder β} (exact_ : Exact read form)
    (lists : ∀ piece value,form piece value → ∃ payload,piece = encodeList payload)
    (formed : Formed (wire sent) fun bytes => form bytes returned)
    (written : requestWire wire ⟨some requestId,sent⟩ = some v.bytes) :
    decodeRequest (fun _ => read) v = .ok ⟨some requestId,returned⟩ := by
  obtain ⟨content,same,formed⟩ := formed
  have spelled : encodeList (encodeScalar requestId.toNat ++ content) = v.bytes := by simpa [requestWire,same] using written
  have fits := v.fits
  rw [← spelled] at fits
  refine (request_exact exact_ lists _ _).mpr ⟨_,encodeScalar requestId.toNat ++ content,spelled.symm,Nat.le_refl _,?_⟩
  exact ⟨_,content,rfl,Or.inl rfl,formed (back_fits (encodeList_shorter fits))⟩

theorem request_returned {read : Decoder α}
    (writes : ∀ content,Writes (payload content) (wire content)) (exact_ : Exact read form)
    (lists : ∀ piece value,form piece value → ∃ payload,piece = encodeList payload) (requestId : BitVec 64)
    (formed : Formed (wire sent) fun bytes => form bytes returned) :
    RoundTrips (encodeRequest payload) (decodeRequest fun _ => read) (requestWire wire) ⟨some requestId,sent⟩
      ⟨some requestId,returned⟩ := by
  have written : ∃ content,wire sent = some content := by
    obtain ⟨content,written,_⟩ := formed
    exact ⟨content,written⟩
  obtain ⟨content,written⟩ := written
  have wired : requestWire wire ⟨some requestId,sent⟩ = some (encodeList (encodeScalar requestId.toNat ++ content)) := by
    simp [requestWire,written]
  refine ⟨_,wired,?_⟩
  intro fits
  exact ⟨(encodeRequest_exact writes _ fits).mpr wired,request_read exact_ lists formed wired⟩

theorem query_formed (single : query.startHash.isSome ≠ query.startNumber.isSome) :
    QueryForm (queryFieldsWire query) query := by
  refine ⟨_,_,_,_,rfl,?_,Or.inl rfl,Or.inl rfl,?_⟩
  · obtain ⟨startHash,startNumber,_,_,_⟩ := query
    cases startHash with
    | some hash =>
      cases startNumber with
      | some number => exact absurd rfl single
      | none => exact Or.inl ⟨hash,rfl,rfl⟩
    | none =>
      cases startNumber with
      | some number => exact Or.inr ⟨number,rfl,Or.inl rfl⟩
      | none => exact absurd rfl single
  · cases query.reverse with
    | true => exact Or.inl ⟨rfl,congrArg encodeString (minimal_byte (by decide) (by decide))⟩
    | false => exact Or.inr ⟨rfl,Or.inl (congrArg encodeString BigEndian.minimal_zero)⟩

theorem query_returned (requestId : BitVec 64) (query : HeaderQuery) (single : query.startHash.isSome ≠ query.startNumber.isSome) :
    RoundTrips encodeGetBlockHeaders decodeGetBlockHeaders (requestWire queryWire) ⟨some requestId,query⟩ ⟨some requestId,query⟩ := by
  have one : ¬ (query.startHash.isSome ∧ query.startNumber.isSome) := fun both => single (both.1.trans both.2.symm)
  have wired : requestWire queryWire ⟨some requestId,query⟩ =
      some (encodeList (encodeScalar requestId.toNat ++ encodeList (queryFieldsWire query))) := by
    simp [requestWire,queryWire,one]
  refine ⟨_,wired,?_⟩
  intro fits
  refine ⟨(encodeRequest_exact query_writes _ fits).mpr wired,?_⟩
  refine (queryRequest_exact _ _).mpr ⟨_,_,rfl,Nat.le_refl _,?_⟩
  exact ⟨_,_,_,rfl,Nat.le_refl _,Or.inl rfl,query_formed single⟩

theorem newBlock_returned (msg : NewBlockMessage) (encodable : Encodable msg.transactions) :
    RoundTrips encodeNewBlock decodeNewBlock newBlockWire msg (normalBlock msg) := by
  have block := ((header_formed msg.header).join
    ((transactions_formed msg.transactions encodable).join (headers_formed msg.ommers))).wrapped
  have total : Formed (some (encodeScalar msg.totalDifficulty.toNat)) fun piece => UnsignedForm piece msg.totalDifficulty :=
    ⟨_,rfl,fun _ => Or.inl rfl⟩
  obtain ⟨bytes,written,formed⟩ := (block.join total).wrapped
  refine ⟨bytes,written,?_⟩
  intro fits
  refine ⟨(encodeNewBlock_exact msg fits).mpr written,?_⟩
  obtain ⟨_,rfl,_,difficulty,rfl,⟨_,rfl,header,_,rfl,one,txs,ommers,rfl,two,three⟩,four⟩ := formed fits
  have block : OpenListForm BlockFieldsForm (encodeList (header ++ (txs ++ ommers)))
      (msg.header,msg.transactions.map normalTransaction,msg.ommers) :=
    ⟨_,[],by simp,⟨header,txs,ommers,rfl,one,two,three⟩,by simp⟩
  have message : OpenListForm NewBlockFieldsForm (encodeList (encodeList (header ++ (txs ++ ommers)) ++ difficulty)) (normalBlock msg) :=
    ⟨_,[],by simp,⟨_,difficulty,rfl,block,four⟩,by simp⟩
  exact bind_ok.mpr ⟨_,newBlock_exact.reads message ⟨_,fits⟩ .empty (List.append_nil _).symm,finish_ok.mpr ⟨rfl,rfl⟩⟩

theorem messages_round_trip (requestId : BitVec 64) :
    (∀ query : HeaderQuery,query.startHash.isSome ≠ query.startNumber.isSome →
      RoundTrips encodeGetBlockHeaders decodeGetBlockHeaders (requestWire queryWire) ⟨some requestId,query⟩ ⟨some requestId,query⟩) ∧
    (∀ headers,RoundTrips encodeBlockHeaders decodeBlockHeaders (requestWire headersWire) ⟨some requestId,headers⟩
      ⟨some requestId,headers⟩) ∧
    (∀ hashes,RoundTrips encodeGetBlockBodies decodeGetBlockBodies (requestWire hashListWire) ⟨some requestId,hashes⟩
      ⟨some requestId,hashes⟩) ∧ (∀ bodies : StdVector BlockBody,(∀ body ∈ bodies.items,Encodable body.transactions) →
      RoundTrips encodeBlockBodies decodeBlockBodies (requestWire bodiesWire) ⟨some requestId,bodies⟩
        ⟨some requestId,bodies.map normalBody⟩) ∧
    (∀ hashes,RoundTrips encodeGetReceipts decodeGetReceipts (requestWire hashListWire) ⟨some requestId,hashes⟩
      ⟨some requestId,hashes⟩) ∧ (∀ blocks : StdVector (StdVector Receipt),
      (∀ block ∈ blocks.items,∀ receipt ∈ block.items,receipt.stateRoot.isSome ≠ receipt.status.isSome) →
      RoundTrips encodeReceipts decodeReceipts (requestWire receiptsWire) ⟨some requestId,blocks⟩ ⟨some requestId,blocks⟩) ∧
    (∀ hashes,RoundTrips encodeGetPooledTransactions decodeGetPooledTransactions (requestWire hashListWire) ⟨some requestId,hashes⟩
      ⟨some requestId,hashes⟩) ∧ (∀ txs : StdVector (StdVector UInt8),(∀ tx ∈ txs.items,IsItem tx.items) →
      RoundTrips encodePooledTransactions decodePooledTransactions (requestWire pooledWire) ⟨some requestId,txs⟩
        ⟨some requestId,txs⟩) ∧ (∀ msg : NewBlockMessage,Encodable msg.transactions →
      RoundTrips encodeNewBlock decodeNewBlock newBlockWire msg (normalBlock msg)) := by
  have hashes (hashes : StdVector Hash256) : RoundTrips (encodeRequest encodeHashList) (decodeRequest fun _ => decodeHashList)
      (requestWire hashListWire) ⟨some requestId,hashes⟩ ⟨some requestId,hashes⟩ :=
    request_returned hashList_writes hashList_exact (fun _ _ formed => formed.list) requestId (hashes_formed ..)
  refine ⟨query_returned requestId,?_,hashes,?_,hashes,?_,hashes,?_,newBlock_returned⟩
  · intro headers
    exact request_returned headers_writes headers_exact (fun _ _ formed => formed.list) requestId (headers_formed ..)
  · intro bodies encodable
    exact request_returned bodies_writes bodies_exact (fun _ _ formed => formed.list) requestId (bodies_formed encodable)
  · intro blocks single
    exact request_returned receipts_writes receipts_exact (fun _ _ formed => formed.list) requestId (receipts_formed single)
  · intro txs items
    exact request_returned pooled_writes pooled_exact (fun _ _ formed => formed.list) requestId (pooled_formed items)

def zeroHeader : BlockHeader :=
  ⟨.zeros 32,.zeros 32,.zeros 20,.zeros 32,.zeros 32,.zeros 32,.zeros 256,0,0,0,0,0,.empty,.zeros 32,.zeros 8,none⟩

def firstHeaders : HeaderQuery := ⟨none,some 1,192,0,false⟩

def transferBody : BlockBody := ⟨.singleton (emptyTransaction .kDynamicFee),.singleton zeroHeader⟩

def unpricedBlock : NewBlockMessage := ⟨zeroHeader,.singleton (emptyTransaction .kLegacy),.empty,0⟩

theorem sample_messages_returned :
    RoundTrips encodeGetBlockHeaders decodeGetBlockHeaders (requestWire queryWire) ⟨some 7,firstHeaders⟩ ⟨some 7,firstHeaders⟩ ∧
    RoundTrips encodeBlockBodies decodeBlockBodies (requestWire bodiesWire) ⟨some 7,.singleton transferBody⟩
      ⟨some 7,.singleton (normalBody transferBody)⟩ ∧
    RoundTrips encodeReceipts decodeReceipts (requestWire receiptsWire) ⟨some 7,.singleton (.singleton (.withStatus true .empty))⟩
      ⟨some 7,.singleton (.singleton (.withStatus true .empty))⟩ ∧
    RoundTrips encodePooledTransactions decodePooledTransactions (requestWire pooledWire)
      ⟨some 7,.singleton (.singleton 0xC0)⟩ ⟨some 7,.singleton (.singleton 0xC0)⟩ ∧
    RoundTrips encodeNewBlock decodeNewBlock newBlockWire unpricedBlock (normalBlock unpricedBlock) := by
  obtain ⟨queries,_,_,bodies,_,receipts,_,pooled,blocks⟩ := messages_round_trip 7
  refine ⟨queries firstHeaders (by decide),bodies (.singleton transferBody) (by unfold Encodable; decide),
    receipts (.singleton (.singleton (.withStatus true .empty))) (by decide),pooled (.singleton (.singleton 0xC0)) ?_,
    blocks unpricedBlock (by unfold Encodable; decide)⟩
  intro tx member
  rw [List.mem_singleton.mp member]
  exact .list []

def depositBody : BlockBody := ⟨.singleton (emptyTransaction .kOpDeposit),.empty⟩

def doubleReceipt : Receipt := { Receipt.withStatus true .empty with stateRoot := some (.zeros 32) }

def doubleMessage : ByteView :=
  ⟨(encodeReceipts ⟨some 7,.singleton (.singleton doubleReceipt)⟩).toOption.getD [],by decide +kernel⟩

theorem transactions_not_returned : encodeBlockBodies ⟨some 7,.singleton depositBody⟩ = .error .kEmptyInput ∧
    (encodeReceipts ⟨some 7,.singleton (.singleton doubleReceipt)⟩ = .ok doubleMessage.bytes ∧
      decodeReceipts doubleMessage = .ok ⟨some 7,.singleton (.singleton { doubleReceipt with status := none })⟩) ∧
    ∃ v : ByteView,encodeNewBlock unpricedBlock = .ok v.bytes ∧ decodeNewBlock v = .ok (normalBlock unpricedBlock) ∧
      normalBlock unpricedBlock ≠ unpricedBlock := by
  refine ⟨by decide +kernel,by decide +kernel,?_⟩
  obtain ⟨bytes,written,returned⟩ := newBlock_returned unpricedBlock (by unfold Encodable; decide)
  have size : (newBlockWire unpricedBlock).map List.length = some 515 := by decide +kernel
  rw [written] at size
  have fits : bytes.length < sizeLimit := by
    rw [Option.some.inj size]
    decide
  obtain ⟨encoded,decoded⟩ := returned fits
  exact ⟨⟨bytes,fits⟩,encoded,decoded,by decide +kernel⟩

end EvmRelay.Eth
