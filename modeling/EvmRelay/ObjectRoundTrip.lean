import EvmRelay.ObjectCodec

namespace EvmRelay.Codec
open Rlp RlpSpec Reader

-- The object has a wire form. Where that fits in memory, encoding gives it,
-- decoding it gives the normal form, and this one is written the same.
def Normalizes (encode : α → Except EncodingError (List UInt8)) (decode : ByteView → Except DecodingError α) (wire : α → Wire)
    (normal : α → α) (sent : α) : Prop :=
  ∃ bytes,wire sent = some bytes ∧ ∀ fits : bytes.length < sizeLimit,
    encode sent = .ok bytes ∧ decode ⟨bytes,fits⟩ = .ok (normal sent) ∧ encode (normal sent) = .ok bytes

section objects
variable {encode : α → Except EncodingError (List UInt8)}

theorem Normalizes.of_wire
    (encodes : ∀ value bytes,bytes.length < sizeLimit → (encode value = .ok bytes ↔ wire value = some bytes))
    (decodes : ∀ v : ByteView,wire sent = some v.bytes → decode v = .ok (normal sent))
    (same : wire (normal sent) = wire sent) (written : wire sent = some bytes) : Normalizes encode decode wire normal sent := by
  refine ⟨bytes,written,?_⟩
  intro fits
  refine ⟨(encodes sent bytes fits).mpr written,decodes ⟨bytes,fits⟩ written,?_⟩
  exact (encodes (normal sent) bytes fits).mpr (same.trans written)

theorem Normalizes.of_reads {write : α → Encoder} {read : Decoder α} {form : α → List UInt8}
    (writes : ∀ value,Writes (write value) (some (form value))) (reads : ∀ value,Reads read (form value) value) (sent : α) :
    Normalizes (fun value => finalizeEncoding (write value)) (fun v => do let (value,_) ← read v; return value)
      (fun value => some (form value)) id sent := by
  refine Normalizes.of_wire (fun value _ fits => finalizeEncoding_exact (writes value) fits) ?_ rfl rfl
  intro v written
  have whole : v.bytes = form sent ++ ByteView.empty.bytes := by
    rw [← Option.some.inj written]
    exact (List.append_nil _).symm
  exact bind_ok.mpr ⟨_,reads sent v .empty whole,rfl⟩

theorem normalReceipt_wire : receiptWire (normalReceipt receipt) = receiptWire receipt := by
  obtain ⟨stateRoot,status,_,_,_⟩ := receipt
  cases stateRoot with
  | some root => rfl
  | none => rfl

theorem normalTransaction_wire (tx : Transaction) : transactionWire (normalTransaction tx) = transactionWire tx := by
  obtain ⟨type,_,_,_,_,_,_,_,_,_,_,_,_,_⟩ := tx
  cases type with
  | kLegacy => rfl
  | kAccessList => rfl
  | kDynamicFee => rfl
  | kOpDeposit => rfl

theorem receiptWire_some (receipt : Receipt) (told : receipt.stateRoot.isSome ∨ receipt.status.isSome) :
    ∃ bytes,receiptWire receipt = some bytes := by
  obtain ⟨stateRoot,status,_,_,_⟩ := receipt
  cases stateRoot with
  | some root => exact ⟨_,rfl⟩
  | none =>
    cases status with
    | some status => exact ⟨_,rfl⟩
    | none => simp at told

theorem transactionWire_some (typed : tx.type ≠ .kOpDeposit) : ∃ bytes,transactionWire tx = some bytes := by
  unfold transactionWire
  cases kind : tx.type with
  | kOpDeposit => exact absurd kind typed
  | _ => exact ⟨_,rfl⟩

-- Every object that has a wire form is read back in its normal form. A receipt
-- has one if it has a state root or a status.
theorem objects_round_trip :
    (∀ entry,Normalizes encodeLogEntry decodeLogEntry (fun entry => some (logEntryWire entry)) id entry) ∧
    (∀ entry,Normalizes encodeAccessListEntry decodeAccessListEntry (fun entry => some (accessListEntryWire entry)) id entry) ∧
    (∀ header,Normalizes encodeBlockHeader decodeBlockHeader (fun header => some (blockHeaderWire header)) id header) ∧
    (∀ receipt : Receipt,receipt.stateRoot.isSome ∨ receipt.status.isSome →
      Normalizes encodeReceipt decodeReceipt receiptWire normalReceipt receipt) ∧ (∀ tx : Transaction,tx.type ≠ .kOpDeposit →
      Normalizes encodeTransaction decodeTransaction transactionWire normalTransaction tx) := by
  refine ⟨?_,?_,?_,?_,?_⟩
  · exact Normalizes.of_reads writeLogEntry_writes logEntry_read
  · exact Normalizes.of_reads accessListEntry_writes accessListEntry_read
  · intro header
    refine Normalizes.of_wire ?_ ?_ rfl rfl
    · intro value bytes fits
      rw [encodeBlockHeader_exact value fits,Option.some_inj]
    · intro v written
      exact decodeBlockHeader_wire header (Option.some.inj written).symm
  · intro receipt told
    obtain ⟨bytes,written⟩ := receiptWire_some receipt told
    exact Normalizes.of_wire (fun value _ fits => encodeReceipt_exact value fits)
      (fun v spelled => decodeReceipt_wire receipt spelled) (normalReceipt_wire ..) written
  · intro tx typed
    obtain ⟨bytes,written⟩ := transactionWire_some typed
    exact Normalizes.of_wire (fun value _ fits => encodeTransaction_exact value fits)
      (fun v spelled => decodeTransaction_wire spelled) (normalTransaction_wire tx) written

def rootedReceipt : Receipt := { Receipt.withStatus true .empty with stateRoot := some (.zeros 32) }

theorem rooted_receipt_normalized : Normalizes encodeReceipt decodeReceipt receiptWire normalReceipt rootedReceipt ∧
      (normalReceipt rootedReceipt).status = none ∧
      Normalizes encodeTransaction decodeTransaction transactionWire normalTransaction (emptyTransaction .kDynamicFee) ∧
      (normalTransaction (emptyTransaction .kDynamicFee)).chainId = some kDefaultChainId :=
  ⟨objects_round_trip.2.2.2.1 rootedReceipt (by decide),rfl,
    objects_round_trip.2.2.2.2 (emptyTransaction .kDynamicFee) (by decide),rfl⟩

theorem bare_receipt_refused : encodeReceipt ⟨none,none,0,.zeros 256,.empty⟩ = .error .kEmptyInput := by decide +kernel

end objects
end EvmRelay.Codec
