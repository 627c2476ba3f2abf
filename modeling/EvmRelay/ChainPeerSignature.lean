import EvmRelay.ChainPeers

namespace EvmRelay.Discv4
open ParseUtility JsonUtility

theorem parsedOptionalString_eq_some :
    parsedOptionalString object name = some text ↔ object.lookup name = some (.string text) := by
  unfold parsedOptionalString getParsedString getParsedAs getParsedValue
  cases object.lookup name with
  | none => simp
  | some value => cases value <;> simp [JsonParsedValue.asString,Except.toOption]

def optionalStrings (names : List Text) : JsonSchemaFields := schemaObject (names.map fun name => (name,.string,false))

theorem optionalStrings_absent (absent : root.lookup name = none) :
    parseSchemaObjectAtPath (optionalStrings (name :: names)) root path =
      parseSchemaObjectAtPath (optionalStrings names) root path := by
  unfold optionalStrings schemaObject
  rw [List.map_cons,List.foldr_cons,parseSchemaObjectAtPath,absent]
  rfl

theorem optionalStrings_present (present : root.lookup name = some value) :
    parseSchemaObjectAtPath (optionalStrings (name :: names)) root path = .ok parsed ↔
      ∃ text others,value = .string text ∧ parseSchemaObjectAtPath (optionalStrings names) root path = .ok others ∧
        parsed = (name,.string text) :: others := by
  unfold optionalStrings schemaObject
  rw [List.map_cons,List.foldr_cons,parseSchemaObjectAtPath,present]
  simp only [Option.some_or,parseSchemaValueAtPath]
  cases value with
  | string text =>
    rw [show JsonParsedValue.string <$> parseString (.string text) (joinPath path name) = .ok (.string text) from rfl,ok_bind,bind_ok]
    constructor
    · rintro ⟨others,read,same⟩
      exact ⟨text,others,rfl,read,(Except.ok.inj same).symm⟩
    · rintro ⟨_,others,same,read,rfl⟩
      cases same
      exact ⟨others,read,rfl⟩
  | _ =>
    constructor
    · intro read
      cases read
    · rintro ⟨_,_,same,_⟩
      cases same

theorem optionalStrings_ok_iff : (∃ parsed,parseSchemaObjectAtPath (optionalStrings names) root path = .ok parsed) ↔
      ∀ name ∈ names,∀ value,root.lookup name = some value → ∃ text,value = .string text := by
  induction names with
  | nil => exact iff_of_true ⟨[],rfl⟩ nofun
  | cons first rest ih =>
    rw [List.forall_mem_cons,← ih]
    cases found : root.lookup first with
    | none =>
      rw [optionalStrings_absent found]
      simp
    | some value =>
      simp only [optionalStrings_present found]
      constructor
      · rintro ⟨_,text,others,same,read,_⟩
        exact ⟨fun _ here => ⟨text,Option.some.inj here ▸ same⟩,others,read⟩
      · rintro ⟨strings,others,read⟩
        obtain ⟨text,same⟩ := strings value rfl
        exact ⟨_,text,others,same,read,rfl⟩

theorem optionalStrings_sound (read : parseSchemaObjectAtPath (optionalStrings names) root path = .ok parsed)
    (stored : parsed.lookup name = some (.string text)) : root.lookup name = some (.string text) := by
  induction names generalizing parsed with
  | nil =>
    cases read
    cases stored
  | cons first rest ih =>
    cases found : root.lookup first with
    | none =>
      rw [optionalStrings_absent found] at read
      exact ih read stored
    | some value =>
      obtain ⟨_,others,same,readOthers,rfl⟩ := (optionalStrings_present found).mp read
      by_cases here : name = first
      · subst here
        rw [List.lookup_cons_self] at stored
        rw [found,same,JsonParsedValue.string.inj (Option.some.inj stored)]
      · rw [List.lookup_cons,beq_false_of_ne here] at stored
        exact ih readOthers stored

theorem optionalStrings_complete (read : parseSchemaObjectAtPath (optionalStrings names) root path = .ok parsed)
    (listed : name ∈ names) (stored : root.lookup name = some (.string text)) : parsed.lookup name = some (.string text) := by
  induction names generalizing parsed with
  | nil => cases listed
  | cons first rest ih =>
    cases found : root.lookup first with
    | none =>
      have other : name ≠ first := by
        rintro rfl
        rw [found] at stored
        cases stored
      rw [optionalStrings_absent found] at read
      exact ih read ((List.mem_cons.mp listed).resolve_left other)
    | some value =>
      obtain ⟨kept,others,same,readOthers,rfl⟩ := (optionalStrings_present found).mp read
      by_cases here : name = first
      · subst here
        rw [stored] at found
        rw [List.lookup_cons_self,Json.string.inj ((Option.some.inj found).trans same)]
      · rw [List.lookup_cons,beq_false_of_ne here]
        exact ih readOthers ((List.mem_cons.mp listed).resolve_left here)

def Declares (root : Members) (signature signerAddress : Text) : Prop :=
  root.lookup kSignatureFieldName = some (.string signature) ∧ root.lookup kSignerAddressFieldName = some (.string signerAddress)

def Declared (root : Members) : Prop := ∃ signature signerAddress,Declares root signature signerAddress

theorem fields_read_iff : (parseSignatureString root = some signature ∧ parseSignerAddressString root = some signerAddress) ↔
      Declares root signature signerAddress := by
  unfold parseSignatureString parseSignerAddressString
  have schema : chainPeerSignatureSchema = optionalStrings [kSignatureFieldName,kSignerAddressFieldName] := rfl
  rw [schema]
  cases read : parseSchemaObjectAtPath (optionalStrings [kSignatureFieldName,kSignerAddressFieldName]) root [] with
  | error error =>
    refine iff_of_false nofun ?_
    intro declared
    have strings : ∀ name ∈ [kSignatureFieldName,kSignerAddressFieldName],∀ value,
        root.lookup name = some value → ∃ text,value = .string text := by
      simp [declared.1,declared.2]
    obtain ⟨parsed,success⟩ := optionalStrings_ok_iff.mpr strings
    rw [success] at read
    cases read
  | ok parsed =>
    simp only [parsedOptionalString_eq_some]
    constructor
    · rintro ⟨signature,signer⟩
      exact ⟨optionalStrings_sound read signature,optionalStrings_sound read signer⟩
    · rintro ⟨signature,signer⟩
      exact ⟨optionalStrings_complete read (by simp) signature,optionalStrings_complete read (by simp) signer⟩

section signatures

theorem verifySignatureImpl_declared (declared : Declares root signature signerAddress) :
    verifySignatureImpl lib (.object root) expected =
      some ⟨true,signatureValid lib root expected signature signerAddress,signerAddress⟩ := by
  obtain ⟨readSignature,readSigner⟩ := fields_read_iff.mpr declared
  unfold verifySignatureImpl
  dsimp only
  rw [readSignature,readSigner]

theorem verifySignatureImpl_undeclared (undeclared : ¬ Declared root) :
    verifySignatureImpl lib (.object root) expected = some ⟨false,false,[]⟩ := by
  unfold verifySignatureImpl
  dsimp only
  cases readSignature : parseSignatureString root with
  | none => rfl
  | some signature =>
    cases readSigner : parseSignerAddressString root with
    | none => rfl
    | some signerAddress => exact absurd ⟨signature,signerAddress,fields_read_iff.mp ⟨readSignature,readSigner⟩⟩ undeclared

-- A recoverable signature, by the trusted signer, of the SHA-256 of the
-- document without its two signature fields; and a document that carries one.
def TrustedSignature (lib : Libraries) (root : Members) (signature : Text) : Prop :=
  ∃ signatureBytes,parseSignatureBytes signature = some signatureBytes ∧
    recoverSignerAddress lib.recovery (lib.sha256 (lib.serialize (makeUnsignedChainPeerCacheObject root))) signatureBytes =
      some kTrustedChainPeerCacheSignerAddress

def Trusted (lib : Libraries) (root : Members) : Prop :=
  ∃ signature,root.lookup kSignatureFieldName = some (.string signature) ∧ TrustedSignature lib root signature

theorem recoverSignerAddress_lower
    (recovered : recoverSignerAddress crypto messageHash signatureBytes = some address) : asciiLower address = address := by
  unfold recoverSignerAddress at recovered
  split_ifs at recovered
  simp only [Option.bind_eq_bind,Option.bind_eq_some_iff] at recovered
  obtain ⟨signature,_,publicKey,_,last⟩ := recovered
  split_ifs at last
  cases last
  exact asciiLower_hexBytesString

theorem trusted_lower : asciiLower kTrustedChainPeerCacheSignerAddress = kTrustedChainPeerCacheSignerAddress := by decide +kernel

theorem signatureValid_iff : signatureValid lib root kTrustedChainPeerCacheSignerAddress signature signerAddress = true ↔
      TrustedSignature lib root signature ∧ asciiLower signerAddress = kTrustedChainPeerCacheSignerAddress := by
  unfold signatureValid TrustedSignature
  rw [trusted_lower]
  cases parseSignatureBytes signature with
  | none => simp
  | some signatureBytes =>
    cases recovered : recoverSignerAddress lib.recovery
        (lib.sha256 (lib.serialize (makeUnsignedChainPeerCacheObject root))) signatureBytes with
    | none => simp [recovered]
    | some address =>
      have named : kTrustedChainPeerCacheSignerAddress ≠ [] := by decide
      simp [recovered,recoverSignerAddress_lower recovered,named]

def Loads (lib : Libraries) (root : Members) (chainName : Text) : Prop :=
  chainName ≠ [] ∧ ∃ config,readChainPeerConfig lib (.object root) chainName = .ok (some config)

theorem load_eq_some (parsed : lib.parse jsonText = some (.object root)) :
    loadChainPeerConfigFromJsonText lib chainName jsonText = .ok (some config) ↔
      chainName ≠ [] ∧ ∃ body,readChainPeerConfig lib (.object root) chainName = .ok (some body) ∧
        admitConfig (verifySignatureImpl lib (.object root) kTrustedChainPeerCacheSignerAddress) body = some config := by
  unfold loadChainPeerConfigFromJsonText parseChainPeerConfigFromJsonValue
  rw [parsed]
  by_cases empty : chainName = []
  · simp [empty]
  rw [if_neg empty]
  rw [bind_ok]
  constructor
  · rintro ⟨read,made,admitted⟩
    obtain ⟨body,same,admitted⟩ := Option.bind_eq_some_iff.mp (Except.ok.inj admitted)
    exact ⟨empty,body,same ▸ made,admitted⟩
  · rintro ⟨_,body,made,admitted⟩
    exact ⟨some body,made,congrArg Except.ok admitted⟩

theorem admitConfig_admits_iff :
    (∃ config,admitConfig (some ⟨hasSignature,valid,signerAddress⟩) body = some config) ↔ (hasSignature = true → valid = true) := by
  cases hasSignature <;> cases valid <;> simp [admitConfig]

theorem admitConfig_signature (admitted : admitConfig (some ⟨hasSignature,valid,signerAddress⟩) body = some config) :
    config.signature = [] ↔ hasSignature = false := by
  unfold admitConfig at admitted
  dsimp only at admitted
  split at admitted
  · cases admitted
  · cases admitted
    cases hasSignature with
    | false => exact iff_of_true rfl rfl
    | true => exact iff_of_false (show ascii "present" ≠ [] by decide) nofun

theorem load_declared_iff (parsed : lib.parse jsonText = some (.object root))
    (declared : Declares root signature signerAddress) :
    (∃ config,loadChainPeerConfigFromJsonText lib chainName jsonText = .ok (some config)) ↔
      Loads lib root chainName ∧ TrustedSignature lib root signature ∧
        asciiLower signerAddress = kTrustedChainPeerCacheSignerAddress := by
  simp only [load_eq_some parsed,verifySignatureImpl_declared declared,← signatureValid_iff,Loads]
  constructor
  · rintro ⟨config,named,body,made,admitted⟩
    exact ⟨⟨named,body,made⟩,admitConfig_admits_iff.mp ⟨config,admitted⟩ rfl⟩
  · rintro ⟨⟨named,body,made⟩,valid⟩
    obtain ⟨config,admitted⟩ := admitConfig_admits_iff.mpr fun _ => valid
    exact ⟨config,named,body,made,admitted⟩

theorem load_undeclared_iff (parsed : lib.parse jsonText = some (.object root)) (undeclared : ¬ Declared root) :
    (∃ config,loadChainPeerConfigFromJsonText lib chainName jsonText = .ok (some config)) ↔ Loads lib root chainName := by
  simp only [load_eq_some parsed,verifySignatureImpl_undeclared undeclared,Loads]
  constructor
  · rintro ⟨config,named,body,made,_⟩
    exact ⟨named,body,made⟩
  · rintro ⟨named,body,made⟩
    have admits : ∃ config,admitConfig (some ⟨false,false,[]⟩) body = some config := admitConfig_admits_iff.mpr nofun
    obtain ⟨config,admitted⟩ := admits
    exact ⟨config,named,body,made,admitted⟩

theorem loaded_signature (parsed : lib.parse jsonText = some (.object root))
    (loaded : loadChainPeerConfigFromJsonText lib chainName jsonText = .ok (some config)) :
    config.signature = [] ↔ ¬ Declared root := by
  obtain ⟨_,body,_,admitted⟩ := (load_eq_some parsed).mp loaded
  by_cases declared : Declared root
  · obtain ⟨signature,signerAddress,fields⟩ := declared
    rw [verifySignatureImpl_declared fields] at admitted
    rw [admitConfig_signature admitted]
    exact iff_of_false nofun (not_not.mpr ⟨signature,signerAddress,fields⟩)
  · rw [verifySignatureImpl_undeclared declared] at admitted
    exact iff_of_true ((admitConfig_signature admitted).mpr rfl) declared

theorem cache_accepted_iff (parsed : lib.parse jsonText = some (.object root)) :
    (((∃ config,loadChainPeerConfigFromJsonText lib chainName jsonText = .ok (some config)) → Trusted lib root) ↔
      (Declared root ∨ Trusted lib root ∨ ¬ Loads lib root chainName)) ∧
    ((∃ config,loadChainPeerConfigFromJsonText lib chainName jsonText = .ok (some config) ∧ config.signature = []) ↔
      ¬ Declared root ∧ Loads lib root chainName) := by
  by_cases declared : Declared root
  · refine ⟨iff_of_true ?_ (.inl declared),iff_of_false ?_ (fun unsigned => unsigned.1 declared)⟩
    · intro accepted
      obtain ⟨signature,signerAddress,fields⟩ := declared
      exact ⟨signature,fields.1,((load_declared_iff parsed fields).mp accepted).2.1⟩
    · rintro ⟨config,loaded,unsigned⟩
      exact (loaded_signature parsed loaded).mp unsigned declared
  · rw [load_undeclared_iff parsed declared]
    refine ⟨?_,?_⟩
    · rw [imp_iff_or_not]
      simp only [declared,false_or]
    · constructor
      · rintro ⟨config,loaded,_⟩
        exact ⟨declared,(load_undeclared_iff parsed declared).mp ⟨config,loaded⟩⟩
      · rintro ⟨_,loads⟩
        obtain ⟨config,loaded⟩ := (load_undeclared_iff parsed declared).mpr loads
        exact ⟨config,loaded,(loaded_signature parsed loaded).mpr declared⟩

-- A document with a signature field that is accepted is a document signed exactly if
-- both fields are strings, or the signature is good anyway, or there is nothing to accept.
theorem signed_cache_accepted_iff (lib : Libraries) (chainName jsonText : Text) (root : Members) (value : Json)
    (parsed : lib.parse jsonText = some (.object root)) (present : root.lookup kSignatureFieldName = some value) :
    (((∃ config,loadChainPeerConfigFromJsonText lib chainName jsonText = .ok (some config)) →
        ∃ signature,value = .string signature ∧ TrustedSignature lib root signature) ↔
      (Declared root ∨ (∃ signature,value = .string signature ∧ TrustedSignature lib root signature) ∨
        ¬ Loads lib root chainName)) ∧
    ((∃ config,loadChainPeerConfigFromJsonText lib chainName jsonText = .ok (some config) ∧ config.signature = []) ↔
      ¬ Declared root ∧ Loads lib root chainName) := by
  have trusted : Trusted lib root ↔ ∃ signature,value = .string signature ∧ TrustedSignature lib root signature := by
    simp [Trusted,present]
  rw [← trusted]
  exact cache_accepted_iff parsed

end signatures

-- A small serializer: no number of these documents is a fraction and no text has anything to escape.
mutual
def renderJson : Json → Text
  | .null => ascii "null"
  | .bool value => ascii (if value then "true" else "false")
  | .int64 value => ascii (toString value.toInt)
  | .uint64 value => ascii (toString value.toNat)
  | .double _ => ascii "0E0"
  | .string value => ascii "\"" ++ value ++ ascii "\""
  | .array items => ascii "[" ++ renderItems items ++ ascii "]"
  | .object members => ascii "\x7b" ++ renderMembers members ++ ascii "\x7d"
def renderItems : List Json → Text
  | [] => []
  | [item] => renderJson item
  | item :: rest => renderJson item ++ ascii "," ++ renderItems rest
def renderMembers : List (Text × Json) → Text
  | [] => []
  | [(name,value)] => ascii "\"" ++ name ++ ascii "\":" ++ renderJson value
  | (name,value) :: rest => ascii "\"" ++ name ++ ascii "\":" ++ renderJson value ++ ascii "," ++ renderMembers rest
end

def renderObject (members : Members) : Text := renderJson (.object members)

def byteSum (text : Text) : FixedBytes 32 :=
  .ofNat 32 (text.foldl (fun sum byte => 257 * sum + byte.toNat + 1) 0)

def ownerKey : FixedBytes 32 := List.Vector.replicate 32 7

def ownerHash : Hash256 := .copy 32 (List.replicate 12 0 ++ (hexBytes kTrustedChainPeerCacheSignerAddress).getD [])

def cacheCrypto : Crypto where
  keccak256 := fun bytes => if bytes = ownerKey.toList ++ ownerKey.toList then ownerHash else .zeros 32
  contextCreate := true
  Signature := FixedBytes 64
  Pubkey := FixedBytes 32
  signRecoverable := fun hash key => some (.copy 64 (hash.toList ++ key.toList),0)
  recoverableParse := fun compact recid => if recid ≤ 3 then some compact else none
  recover := fun sig hash => if sig.toList.take 32 = hash.toList then some (.copy 32 (sig.toList.drop 32)) else none
  pubkeySerialize := fun key => 0x04 ::ᵥ FixedBytes.copy 64 (key.toList ++ key.toList)

def mainnet : Text := ascii "mainnet"

def mainnetEntry (networkId : BitVec 64) : Json := .object [
  (ascii "networkId",.int64 networkId),(ascii "genesisHex",.string (hexArrayString (.zeros 32 : Hash256))),
  (kChainPeerNodesFieldName,.array []),(kChainPeerBootnodesFieldName,.array [])]

def ownerSignature : Text :=
  hexBytesString ((byteSum (renderObject [(mainnet,mainnetEntry 1)])).toList ++ (ownerKey.toList ++ [0]))

def signedRoot : Members := [(mainnet,mainnetEntry 1),(kSignatureFieldName,.string ownerSignature),
  (kSignerAddressFieldName,.string kTrustedChainPeerCacheSignerAddress)]

def forgedRoot : Members := [(mainnet,mainnetEntry 666),(kSignatureFieldName,.string ownerSignature),
  (kSignerAddressFieldName,.string kTrustedChainPeerCacheSignerAddress)]

def strippedRoot : Members := [(mainnet,mainnetEntry 666),(kSignatureFieldName,.string ownerSignature)]

def retypedRoot : Members := [(mainnet,mainnetEntry 666),(kSignatureFieldName,.string ownerSignature),(kSignerAddressFieldName,.null)]

def cacheLibraries : Libraries where
  parse := fun text =>
    ([signedRoot,forgedRoot,strippedRoot,retypedRoot].find? fun root => renderObject root = text).map .object
  serialize := renderObject
  sha256 := byteSum
  recovery := cacheCrypto
  records := ⟨fun _ => .zeros 32,true,true,Unit,Unit,fun _ => none,fun _ => none,fun _ _ _ => false,fun _ => .zeros 65⟩
  addresses := ⟨fun _ => "",fun _ => ""⟩

def mainnetConfig (networkId : BitVec 64) (signature signerAddress : Text) : ChainPeerConfig :=
  ⟨mainnet,networkId,.zeros 32,[],[],[],[],.kAuto,.kRequire,none,[],signature,signerAddress⟩

theorem signed_document_trusted : loadChainPeerConfigFromJsonText cacheLibraries mainnet (renderObject signedRoot) =
      .ok (some (mainnetConfig 1 (ascii "present") kTrustedChainPeerCacheSignerAddress)) ∧
    ∃ signature,Json.string ownerSignature = .string signature ∧ TrustedSignature cacheLibraries signedRoot signature := by
  have accepted : loadChainPeerConfigFromJsonText cacheLibraries mainnet (renderObject signedRoot) =
      .ok (some (mainnetConfig 1 (ascii "present") kTrustedChainPeerCacheSignerAddress)) := by decide +kernel
  have parsed : cacheLibraries.parse (renderObject signedRoot) = some (.object signedRoot) := by
    simp [cacheLibraries]
  exact ⟨accepted,(signed_cache_accepted_iff cacheLibraries mainnet _ signedRoot _ parsed rfl).1.mpr
    (.inl ⟨ownerSignature,kTrustedChainPeerCacheSignerAddress,rfl,rfl⟩) ⟨_,accepted⟩⟩

theorem stripped_document_accepted :
    loadChainPeerConfigFromJsonText cacheLibraries mainnet (renderObject forgedRoot) = .ok none ∧
    loadChainPeerConfigFromJsonText cacheLibraries mainnet (renderObject strippedRoot) = .ok (some (mainnetConfig 666 [] [])) ∧
    loadChainPeerConfigFromJsonText cacheLibraries mainnet (renderObject retypedRoot) = .ok (some (mainnetConfig 666 [] [])) ∧
    strippedRoot.lookup kSignatureFieldName = some (.string ownerSignature) ∧ ¬ Trusted cacheLibraries strippedRoot := by
  have refused : (parseSignatureBytes ownerSignature).bind (recoverSignerAddress cacheLibraries.recovery
      (cacheLibraries.sha256 (cacheLibraries.serialize (makeUnsignedChainPeerCacheObject strippedRoot)))) = none := by
    decide +kernel
  refine ⟨by decide +kernel,by decide +kernel,by decide +kernel,rfl,?_⟩
  rintro ⟨signature,same,signatureBytes,read,recovered⟩
  cases (rfl : strippedRoot.lookup kSignatureFieldName = some (.string ownerSignature)).symm.trans same
  rw [read,Option.bind_some,recovered] at refused
  cases refused

end EvmRelay.Discv4
