import EvmRelay.EnrFields

namespace EvmRelay.Enr
open Rlp RlpSpec

def ValidSignature (crypto : Crypto) (key : FixedBytes 33) (sig : FixedBytes 64) (content : List UInt8) : Prop :=
  ∃ pubkey signature, crypto.pubkeyParse key = some pubkey ∧ crypto.signatureParseCompact sig = some signature ∧
    crypto.ecdsaVerify signature (crypto.keccak256 content) pubkey = true

def lastValue (key : List UInt8) : List Pair → Option (List UInt8)
  | [] => none
  | pair :: rest =>
    match lastValue key rest with
    | some val => some val
    | none => if pair.1 = key then some pair.2.items else none

-- Accepted means authentic: the bytes that were checked are the signature
-- element and the other elements of the record's own list.
structure Authentic (crypto : Crypto) (record : EnrRecord) (layout : Layout raw) : Prop where
  signature : ∃ sigBytes, record.extraFields sigKey = some sigBytes ∧ sigBytes.take 64 = layout.sig.toList
  content : record.extraFields contentKey = some layout.content
  valid : ValidSignature crypto record.compressedPubkey layout.sig layout.content

-- Pairs under the two bookkeeping keys, if any, end up repeating the originals.
structure Layout.KeepsReserved (layout : Layout raw) : Prop where
  signature : ∀ val, lastValue sigKey layout.pairs = some val → val.take 64 = layout.sig.toList
  content : ∀ val, lastValue contentKey layout.pairs = some val → val = layout.content

theorem verifySignature_sound (accepted : verifySignature crypto record = .ok verified) :
    ∃ sigBytes content, ∃ size : (sigBytes.take 64).length = 64, record.extraFields sigKey = some sigBytes ∧
      record.extraFields contentKey = some content ∧
      ValidSignature crypto record.compressedPubkey ⟨sigBytes.take 64,size⟩ content ∧
      ∃ nodeId, verified = (({ record with nodeId := nodeId }).eraseExtra sigKey).eraseExtra contentKey := by
  unfold verifySignature at accepted
  split at accepted
  · rename_i sigBytes content foundSig foundContent
    dsimp only at accepted
    split at accepted
    · cases accepted
    split at accepted
    · cases accepted
    rename_i pubkey parsedKey
    split at accepted
    · rename_i size
      split at accepted
      · cases accepted
      rename_i signature parsedSig
      split at accepted
      · cases accepted
      rename_i verifies
      split at accepted
      · cases accepted
      rename_i nodeId _
      cases accepted
      refine ⟨sigBytes,content,size,foundSig,foundContent,⟨pubkey,signature,parsedKey,parsedSig,?_⟩,nodeId,rfl⟩
      simpa using verifies
    · cases accepted
  · cases accepted

theorem known_skipped {known rest : Slot} [Decidable reserved]
    (named : (if reserved then known else rest) = .extra key) (different : ∀ key,known ≠ .extra key) : rest = .extra key := by
  split at named
  · exact absurd named (different key)
  · exact named

theorem slotOf_extra (named : slotOf other = .extra key) : other = key := by
  iterate 9 replace named := known_skipped named (by simp)
  exact Slot.extra.inj named

theorem extra_last (text : AddressText) (named : slotOf key = .extra key) :
    LastWrite.last (entries text pairs) (.extra key) = (lastValue key pairs).map some := by
  induction pairs with
  | nil => rfl
  | cons pair rest ih =>
    by_cases same : pair.1 = key
    · have entry : entryOf text pair = some ⟨.extra key,some pair.2.items⟩ := by
        rw [entryOf,same,named]
        rfl
      rw [entries,List.filterMap_cons_some entry,LastWrite.last,lastValue,if_pos same,dif_pos rfl]
      rw [entries] at ih
      rw [ih]
      cases lastValue key rest <;> rfl
    · rw [lastValue,if_neg same]
      have skipped : (match lastValue key rest with | some val => some val | none => none) = lastValue key rest := by
        cases lastValue key rest <;> rfl
      rw [skipped,← ih,entries,entries]
      cases entry : entryOf text pair with
      | none => rw [List.filterMap_cons_none entry]
      | some written =>
        have elsewhere : written.1 ≠ .extra key := by
          rw [entryOf_slot entry]
          exact fun named => same (slotOf_extra named)
        rw [List.filterMap_cons_some entry,LastWrite.last,dif_neg elsewhere]
        cases LastWrite.last (rest.filterMap (entryOf text)) (.extra key) <;> rfl

theorem Layout.extra_eq (layout : Layout raw) (text : AddressText) (named : slotOf key = .extra key)
    (stored : layout.start.extraFields key = some original) :
    (layout.record text).extraFields key = some ((lastValue key layout.pairs).getD original) := by
  have run := congrFun (fields_slots text layout.pairs layout.start) (.extra key)
  rw [LastWrite.run_apply,extra_last text named] at run
  have before : layout.start.slots (.extra key) = some original := stored
  rw [before] at run
  refine Eq.trans run ?_
  cases lastValue key layout.pairs <;> rfl

theorem Layout.checked_signature (layout : Layout raw) (text : AddressText) :
    (layout.record text).extraFields sigKey = some ((lastValue sigKey layout.pairs).getD layout.sig.toList) := by
  refine layout.extra_eq text (by decide) ?_
  unfold start
  rw [setExtra_other _ (show sigKey ≠ contentKey by decide),setExtra_same]

theorem Layout.checked_content (layout : Layout raw) (text : AddressText) :
    (layout.record text).extraFields contentKey = some ((lastValue contentKey layout.pairs).getD layout.content) := by
  refine layout.extra_eq text (by decide) ?_
  unfold start
  rw [setExtra_same]

-- The record of the go-ethereum test node, as it is signed and published.
def nodeKey : FixedBytes 33 :=
  .ofNat 33 0x033a514176466fa815ed481ffad09110a2d344f6c9b78c1d14afc351c3a51be33d

def nodeSignature : FixedBytes 64 :=
  ⟨BigEndian.fixed 64 (0x6addab4ba0011a794f6059e354eb64ea8b73fa0abd9a0fb993f9fbe6a7a9613f * 2 ^ 256 +
    0x27e4ee71cd7182438beea5e5d29b89813eea736292bdcba97383426f49ebe2d7),BigEndian.fixed_length ..⟩

def field (key : String) (val : List UInt8) : List UInt8 := encodeString (ascii key) ++ encodeString val

def nodeElements : List UInt8 :=
  encodeScalar 99 ++ (field "id" (ascii "v4") ++ (field "ip" [127,0,0,1] ++
    (field "secp256k1" nodeKey.toList ++ field "udp" [0x76,0x5F])))

def nodeContent : List UInt8 := listHeader nodeElements.length ++ nodeElements

def nodeRecord : ByteView :=
  ⟨listHeader (66 + nodeElements.length) ++ (encodeString nodeSignature.toList ++ nodeElements),by decide +kernel⟩

-- The same key in a record nobody signed: the first element is filler, and the
-- published content and signature ride along as pairs.
def forgedElements : List UInt8 :=
  encodeScalar 99 ++ (field "__content__" nodeContent ++ (field "__sig__" nodeSignature.toList ++
    (field "id" (ascii "v4") ++ (field "ip" [10,0,0,1] ++ field "secp256k1" nodeKey.toList))))

def forgedRecord : ByteView :=
  ⟨listHeader (66 + forgedElements.length) ++ (encodeString (List.replicate 64 0x01) ++ forgedElements),by decide +kernel⟩

def nodeCrypto : Crypto where
  keccak256 := fun bytes =>
    if bytes = nodeContent then
      .ofNat 32 0xf1f0a24a080cb41f00122844466507b61e9f5a7f85b92b5f4d2a79d1d8ba51df
    else if bytes = listHeader forgedElements.length ++ forgedElements then
      .ofNat 32 0x478ec1641896c1e6fe01a991c9e8eeaca121d8bfa64c756cf314157b3030c72c
    else .zeros 32
  contextCreate := true
  decompressContextCreate := true
  Pubkey := FixedBytes 33
  Signature := FixedBytes 64
  pubkeyParse := fun key => if key = nodeKey then some key else none
  signatureParseCompact := some
  ecdsaVerify := fun sig hash key =>
    decide (sig = nodeSignature) && decide (key = nodeKey ∧ hash.toList =
      BigEndian.fixed 32 0xf1f0a24a080cb41f00122844466507b61e9f5a7f85b92b5f4d2a79d1d8ba51df)
  pubkeySerialize := fun key =>
    ⟨0x04 :: (key.toList.tail ++
      BigEndian.fixed 32 0x8072e77939dc03ba44790779b7a1025baf3003f6732430e20cd9b76d953391b3),by
      rw [List.length_cons,List.length_append,List.length_tail,key.toList_length,BigEndian.fixed_length]⟩

def dottedText : AddressText := ⟨fun ip => ".".intercalate (ip.toList.map fun byte => toString byte.toNat),fun _ => ""⟩

theorem accepted_runs (ran : (decodeRlp text raw >>= verifySignature crypto).isOk = true) :
    ∃ record verified, decodeRlp text raw = .ok record ∧ verifySignature crypto record = .ok verified := by
  cases result : decodeRlp text raw >>= verifySignature crypto with
  | error error => rw [result] at ran; cases ran
  | ok verified =>
    obtain ⟨record,decoded,accepted⟩ := bind_ok.mp result
    exact ⟨record,verified,decoded,accepted⟩

theorem node_accepted : (decodeRlp dottedText nodeRecord >>= verifySignature nodeCrypto).isOk = true := by
  decide +kernel

-- The accepted records whose own signature was checked over their own content
-- are those that do not overwrite the two bookkeeping fields.
theorem accepted_authentic_iff (crypto : Crypto) (text : AddressText) (raw : ByteView) (record verified : EnrRecord)
    (decoded : decodeRlp text raw = .ok record) (accepted : verifySignature crypto record = .ok verified) :
    Nonempty (Layout raw) ∧ ∀ layout : Layout raw, Authentic crypto record layout ↔ layout.KeepsReserved := by
  refine ⟨decodeRlp_layout decoded,?_⟩
  intro layout
  have parsed := layout.record_unique decoded
  have sig := layout.checked_signature text
  have content := layout.checked_content text
  rw [← parsed] at sig content
  refine ⟨?_,?_⟩
  · intro authentic
    refine ⟨?_,?_⟩
    · intro val overwritten
      obtain ⟨sigBytes,found,same⟩ := authentic.signature
      rw [sig,overwritten] at found
      cases found
      exact same
    · intro val overwritten
      have found := authentic.content
      rw [content,overwritten] at found
      cases found
      rfl
  · intro keeps
    obtain ⟨sigBytes,checked,size,foundSig,foundContent,valid,_⟩ := verifySignature_sound accepted
    have sameSig : sigBytes.take 64 = layout.sig.toList := by
      rw [sig] at foundSig
      cases foundSig
      cases overwritten : lastValue sigKey layout.pairs with
      | none => exact List.take_of_length_le (Nat.le_of_eq layout.sig.toList_length)
      | some val => exact keeps.signature val overwritten
    have sameContent : checked = layout.content := by
      rw [content] at foundContent
      cases foundContent
      cases overwritten : lastValue contentKey layout.pairs with
      | none => rfl
      | some val => exact keeps.content val overwritten
    have sameBytes : (⟨sigBytes.take 64,size⟩ : FixedBytes 64) = layout.sig := Subtype.ext sameSig
    rw [sameBytes,sameContent] at valid
    rw [sameContent] at foundContent
    exact ⟨⟨sigBytes,foundSig,sameSig⟩,foundContent,valid⟩

theorem node_authentic_iff :
    ∃ record verified, decodeRlp dottedText nodeRecord = .ok record ∧ verifySignature nodeCrypto record = .ok verified ∧
      Nonempty (Layout nodeRecord) ∧
      ∀ layout : Layout nodeRecord, Authentic nodeCrypto record layout ↔ layout.KeepsReserved := by
  obtain ⟨record,verified,decoded,accepted⟩ := accepted_runs node_accepted
  exact ⟨record,verified,decoded,accepted,
    accepted_authentic_iff nodeCrypto dottedText nodeRecord record verified decoded accepted⟩

-- The forged record passes both functions with the node's key and another
-- address, while its first element signs nothing.
theorem forged_record_accepted : ∃ record verified, decodeRlp dottedText forgedRecord = .ok record ∧
      verifySignature nodeCrypto record = .ok verified ∧ record.compressedPubkey = nodeKey ∧ verified.ip = "10.0.0.1" ∧
      Nonempty (Layout forgedRecord) ∧ ∀ layout : Layout forgedRecord,
        ¬ ValidSignature nodeCrypto record.compressedPubkey layout.sig layout.content ∧
        ¬ Authentic nodeCrypto record layout := by
  have ran : ((decodeRlp dottedText forgedRecord >>= fun record => (verifySignature nodeCrypto record).map
      fun verified => decide (record.compressedPubkey = nodeKey ∧ verified.ip = "10.0.0.1")) = .ok true) := by
    decide +kernel
  have filler : (readSignature forgedRecord).toOption.map (fun o => o.sigBytes.toList) =
      some (List.replicate 64 0x01) := by decide +kernel
  obtain ⟨record,decoded,checked⟩ := bind_ok.mp ran
  cases accepted : verifySignature nodeCrypto record with
  | error error => rw [accepted] at checked; cases checked
  | ok verified =>
    rw [accepted] at checked
    obtain ⟨key,ip⟩ := of_decide_eq_true (Except.ok.inj checked)
    refine ⟨record,verified,decoded,accepted,key,ip,decodeRlp_layout decoded,?_⟩
    intro layout
    obtain ⟨view,rest,read,_⟩ := layout.opens
    rw [read] at filler
    have sig : layout.sig.toList = List.replicate 64 0x01 := Option.some.inj filler
    have invalid : ¬ ValidSignature nodeCrypto record.compressedPubkey layout.sig layout.content := by
      rintro ⟨pubkey,signature,_,parsed,verifies⟩
      cases parsed
      have same := of_decide_eq_true (Bool.and_elim_left verifies)
      rw [same] at sig
      revert sig
      decide +kernel
    exact ⟨invalid,fun authentic => invalid authentic.valid⟩

end EvmRelay.Enr
