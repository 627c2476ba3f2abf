import EvmRelay.ChainPeers

namespace EvmRelay.Discv5
open ParseUtility Discv4

abbrev kPubkeyHexLen : Nat := 128

def hexToNibble (c : UInt8) : UInt8 :=
  if 0x30 ≤ c ∧ c ≤ 0x39 then c - 0x30
  else if 0x61 ≤ c ∧ c ≤ 0x66 then 10 + (c - 0x61)
  else if 0x41 ≤ c ∧ c ≤ 0x46 then 10 + (c - 0x41)
  else 0xFF

def readHexKey : (count : Nat) → Text → Option (FixedBytes count)
  | 0,_ => some List.Vector.nil
  | count + 1,hiChar :: loChar :: rest =>
    if hexToNibble hiChar = 0xFF ∨ hexToNibble loChar = 0xFF then none
    else (readHexKey count rest).map fun bytes => (hexToNibble hiChar <<< 4 ||| hexToNibble loChar) ::ᵥ bytes
  | _,_ => none

-- The port is kept in 16 bits from one digit to the next.
def readPort (portStr : Text) : Option (BitVec 16) :=
  portStr.foldlM (fun port c =>
    if c < 0x30 ∨ c > 0x39 then none else some (BitVec.ofNat 16 (port.toNat * 10 + (c - 0x30).toNat))) 0

-- The peer that enqueue_enode_uri hands to process_found_peers; none where it
-- counts an invalid record. start has seen the prefix.
def enodePeer (uri : Text) : Option DiscoveredPeer :=
  if uri.length < kEnodePrefix.length + kPubkeyHexLen + 2 then none
  else do
    let body := uri.drop kEnodePrefix.length
    let atPos ← body.findIdx? (· = 0x40)
    if atPos ≠ kPubkeyHexLen then none
    else
      let nodeId ← readHexKey kNodeIdSize (body.take kPubkeyHexLen)
      let hostPort := body.drop (atPos + 1)
      let colonPos ← rfind 0x3a hostPort
      let port ← readPort (hostPort.drop (colonPos + 1))
      if port = 0 then none else some ⟨nodeId,hostPort.take colonPos,port,port,none⟩

theorem hexToNibble_eq : hexToNibble c = (hexNibble c).getD 0xFF := by
  unfold hexToNibble hexNibble
  split_ifs <;> rfl

theorem hexNibble_below (c : UInt8) : hexNibble c ≠ some 0xFF := by
  have every : ∀ k : Fin 256,hexNibble (UInt8.ofNat k) ≠ some 0xFF := by decide +kernel
  simpa using every ⟨c.toNat,c.toNat_lt⟩

theorem hexToNibble_none : hexToNibble c = 0xFF ↔ hexNibble c = none := by
  rw [hexToNibble_eq]
  cases read : hexNibble c with
  | none => simp
  | some nibble =>
    have below := hexNibble_below c
    rw [read] at below
    simpa using below

theorem hexPairs_length (read : hexPairs text = some bytes) : text.length = 2 * bytes.length := by
  fun_induction hexPairs text generalizing bytes with
  | case1 =>
    cases read
    rfl
  | case2 => cases read
  | case3 high low rest ih =>
    obtain ⟨_,_,read⟩ := Option.bind_eq_some_iff.mp read
    obtain ⟨_,_,read⟩ := Option.bind_eq_some_iff.mp read
    obtain ⟨more,others,read⟩ := Option.bind_eq_some_iff.mp read
    cases read
    rw [List.length_cons,List.length_cons,List.length_cons,ih others]
    omega

theorem readHexKey_pairs (count : Nat) (text : Text) (exactly : text.length = 2 * count) :
    (readHexKey count text).map List.Vector.toList = hexPairs text := by
  induction count generalizing text with
  | zero =>
    rw [List.length_eq_zero_iff.mp exactly]
    rfl
  | succ count ih =>
    match text,exactly with
    | high :: low :: rest,exactly =>
      have behind := ih rest (by simp only [List.length_cons] at exactly; omega)
      rw [readHexKey,hexPairs,← behind]
      cases hi : hexNibble high with
      | none =>
        rw [if_pos (Or.inl (hexToNibble_none.mpr hi))]
        rfl
      | some h =>
        cases lo : hexNibble low with
        | none =>
          rw [if_pos (Or.inr (hexToNibble_none.mpr lo))]
          rfl
        | some l =>
          have digits : ¬ (hexToNibble high = 0xFF ∨ hexToNibble low = 0xFF) := by
            rw [hexToNibble_none,hexToNibble_none,hi,lo]
            simp
          rw [if_neg digits,hexToNibble_eq,hexToNibble_eq,hi,lo]
          cases readHexKey count rest with
          | none => rfl
          | some bytes => rfl

theorem readHexKey_eq (text : Text) (exactly : text.length = kPubkeyHexLen) :
    readHexKey kNodeIdSize text = hexArray kNodeIdSize text := by
  have pairs := readHexKey_pairs kNodeIdSize text exactly
  unfold hexArray
  by_cases trimmed : trimHexPrefix text = text
  · rw [trimmed,← pairs]
    cases readHexKey kNodeIdSize text with
    | none => rfl
    | some bytes =>
      show some bytes = dite (bytes.toList.length = kNodeIdSize) _ _
      rw [dif_pos (List.Vector.toList_length bytes)]
      rfl
  · unfold trimHexPrefix at trimmed ⊢
    split at trimmed
    · rename_i zero x rest
      split_ifs at trimmed with marked
      · have short : readHexKey kNodeIdSize (zero :: x :: rest) = none := by
          rcases marked.2 with rfl | rfl <;> exact if_pos (Or.inr (by decide))
        rw [short,if_pos marked]
        cases read : hexPairs rest with
        | none => rfl
        | some bytes =>
          have size := hexPairs_length read
          have sizes : kPubkeyHexLen = 2 * kNodeIdSize := rfl
          simp only [List.length_cons] at exactly
          show none = dite (bytes.length = kNodeIdSize) _ _
          rw [dif_neg (by omega)]
      · exact absurd rfl trimmed
    · exact absurd rfl trimmed

def decimalValue (text : Text) : Option Nat :=
  (text.mapM decimalDigit).map fun digits => digits.foldl (fun number digit => 10 * number + digit.toNat) 0

theorem readPort_from (text : Text) (number : Nat) : text.foldlM (fun (port : BitVec 16) c =>
        if c < 0x30 ∨ c > 0x39 then none else some (BitVec.ofNat 16 (port.toNat * 10 + (c - 0x30).toNat))) (BitVec.ofNat 16 number) =
      (text.mapM decimalDigit).map fun digits => BitVec.ofNat 16 (digits.foldl (fun number digit => 10 * number + digit.toNat) number) := by
  induction text generalizing number with
  | nil => rfl
  | cons c rest ih =>
    rw [List.foldlM_cons,List.mapM_cons]
    by_cases digit : 0x30 ≤ c ∧ c ≤ 0x39
    · have inside : ¬ (c < 0x30 ∨ c > 0x39) := by
        rw [not_or,UInt8.not_lt,UInt8.not_lt]
        exact digit
      have next : BitVec.ofNat 16 ((BitVec.ofNat 16 number).toNat * 10 + (c - 0x30).toNat) =
          BitVec.ofNat 16 (10 * number + (c - 0x30).toNat) := by
        apply BitVec.eq_of_toNat_eq
        simp only [BitVec.toNat_ofNat]
        omega
      rw [if_neg inside,decimalDigit,if_pos digit,next]
      show List.foldlM _ (BitVec.ofNat 16 (10 * number + (c - 0x30).toNat)) rest = _
      rw [ih]
      cases rest.mapM decimalDigit with
      | none => rfl
      | some digits => rfl
    · have outside : c < 0x30 ∨ c > 0x39 := by
        rw [not_and_or,UInt8.not_le,UInt8.not_le] at digit
        exact digit
      rw [if_pos outside,decimalDigit,if_neg digit]
      rfl

theorem readPort_eq (text : Text) : readPort text = (decimalValue text).map (BitVec.ofNat 16) := by
  have run := readPort_from text 0
  rw [decimalValue,Option.map_map]
  exact run

theorem uint16Decimal_eq : uint16Decimal text =
    if text = [] then none else (decimalValue text).bind fun number => if number < 2 ^ 16 then some (BitVec.ofNat 16 number) else none := by
  rw [uint16Decimal,fromCharsDecimal,decimalValue]
  split
  · rfl
  · cases text.mapM decimalDigit with
    | none => rfl
    | some digits => rfl

section uri
variable {id : Text}

-- enode://<id>@<host>:<port>
def enodeUri (id host port : Text) : Text := kEnodePrefix ++ (id ++ 0x40 :: (host ++ 0x3a :: port))

structure EnodeShape (id host port : Text) : Prop where
  plainId : 0x40 ∉ id
  plainPort : 0x3a ∉ port
  noQuery : 0x3f ∉ host ++ 0x3a :: port

theorem findIdx_first (back : Text) (absent : ch ∉ front) : (front ++ ch :: back).findIdx? (· = ch) = some front.length := by
  induction front with
  | nil => simp [List.findIdx?_cons]
  | cons first rest ih =>
    have differs : ¬ first = ch := fun same => absent (same ▸ List.mem_cons_self)
    rw [List.cons_append,List.findIdx?_cons,ih fun member => absent (List.mem_cons_of_mem _ member)]
    simp [differs]

theorem rfind_last (front : Text) (absent : ch ∉ back) : rfind ch (front ++ ch :: back) = some front.length := by
  have flipped : (front ++ ch :: back).reverse = back.reverse ++ ch :: front.reverse := by simp
  rw [rfind,flipped,findIdx_first _ (by rwa [List.mem_reverse])]
  simp only [Option.map_some,List.length_append,List.length_cons,List.length_reverse]
  congr 1
  omega

theorem drop_separator (front : Text) (back : Text) : (front ++ ch :: back).drop (front.length + 1) = back := by
  rw [List.append_cons]
  exact List.drop_left' (by simp)

theorem enodeUri_body : (enodeUri id host port).drop kEnodePrefix.length = id ++ 0x40 :: (host ++ 0x3a :: port) :=
  List.drop_left

theorem enodePeer_eq (shape : EnodeShape id host port) : enodePeer (enodeUri id host port) =
    if id.length ≠ kPubkeyHexLen then none
    else (hexArray kNodeIdSize id).bind fun nodeId => ((decimalValue port).map (BitVec.ofNat 16)).bind fun port =>
      if port = 0 then none else some ⟨nodeId,host,port,port,none⟩ := by
  have size : (enodeUri id host port).length = kEnodePrefix.length + (id.length + (1 + (host.length + (1 + port.length)))) := by
    simp only [enodeUri,List.length_append,List.length_cons]
    omega
  unfold enodePeer
  dsimp only
  rw [enodeUri_body,findIdx_first _ shape.plainId]
  by_cases exactly : id.length = kPubkeyHexLen
  · rw [if_neg (by omega),if_neg (not_not_intro exactly)]
    simp only [Option.bind_eq_bind,Option.bind_some,ne_eq,exactly,not_true,if_false]
    rw [← exactly,List.take_left,readHexKey_eq id exactly,drop_separator,rfind_last _ shape.plainPort]
    simp only [Option.bind_some,List.take_left]
    rw [drop_separator,readPort_eq]
  · rw [if_pos exactly]
    simp only [Option.bind_eq_bind,Option.bind_some,ne_eq,exactly,not_false_eq_true,if_true,ite_self]

theorem makeValidatedPeerFromEnode_eq (shape : EnodeShape id host port) : makeValidatedPeerFromEnode (enodeUri id host port) =
    if id.length ≠ kPubkeyHexLen then none
    else (uint16Decimal port).bind fun port => (hexArray kNodeIdSize id).bind fun nodeId => some (generatedPeer nodeId host port) := by
  have whole : (host ++ 0x3a :: port).takeWhile (· ≠ 0x3f) = host ++ 0x3a :: port := by
    rw [List.takeWhile_eq_self_iff]
    intro c member
    exact decide_eq_true fun same => shape.noQuery (same ▸ member)
  have prefixed : kEnodePrefix.isPrefixOf (enodeUri id host port) = true := List.isPrefixOf_iff_prefix.mpr (List.prefix_append _ _)
  unfold makeValidatedPeerFromEnode
  dsimp only
  rw [if_neg (not_not_intro prefixed),enodeUri_body,findIdx_first _ shape.plainId]
  simp only [Option.bind_eq_bind,Option.bind_some,List.take_left,drop_separator,whole,rfind_last _ shape.plainPort]
  rfl

def portedPeer (vp : Discv4.ValidatedPeer) : Option DiscoveredPeer := if vp.peer.udpPort = 0 then none else some vp.peer

-- A key that is fine, and a port whose number is lost in 16 bits but for a rest.
def Wraps (id port : Text) : Prop :=
  id.length = kPubkeyHexLen ∧ (hexArray kNodeIdSize id).isSome ∧ ∃ number,decimalValue port = some number ∧ 65535 < number ∧ number % 65536 ≠ 0

theorem ofNat_zero_iff : BitVec.ofNat 16 number = 0 ↔ number % 65536 = 0 := by
  rw [← BitVec.toNat_inj,BitVec.toNat_ofNat]
  rfl

theorem parsers_agree_iff (nodeId : NodeId) (host : Text) (some : port ≠ [] ∨ number = 0) :
    (((if BitVec.ofNat 16 number = 0 then none else Option.some ⟨nodeId,host,BitVec.ofNat 16 number,BitVec.ofNat 16 number,none⟩) :
        Option DiscoveredPeer) =
      (if port = [] then none else if number < 2 ^ 16 then Option.some (BitVec.ofNat 16 number) else none).bind fun port =>
        portedPeer (generatedPeer nodeId host port)) ↔ ¬ (65535 < number ∧ number % 65536 ≠ 0) := by
  by_cases empty : port = []
  · have zero : number = 0 := some.resolve_left (not_not_intro empty)
    subst zero
    simp [empty]
  rw [if_neg empty]
  by_cases small : number < 2 ^ 16
  · rw [if_pos small]
    refine iff_of_true rfl ?_
    omega
  rw [if_neg small,Option.bind_none]
  have large : 65535 < number := by omega
  split_ifs with zero
  · refine iff_of_true rfl ?_
    rw [ofNat_zero_iff] at zero
    simp [zero]
  · rw [ofNat_zero_iff] at zero
    simp [large,zero]

theorem decimalValue_nil : decimalValue [] = some 0 := rfl

end uri

theorem enode_uris_agree_iff (id host port : Text) (shape : EnodeShape id host port) :
    (enodePeer (enodeUri id host port) = (makeValidatedPeerFromEnode (enodeUri id host port)).bind portedPeer ↔ ¬ Wraps id port) ∧
    (∀ peer,enodePeer (enodeUri id host port) = some peer →
      ∃ number,decimalValue port = some number ∧ peer.udpPort.toNat = number % 65536) := by
  rw [enodePeer_eq shape,makeValidatedPeerFromEnode_eq shape,uint16Decimal_eq]
  by_cases exactly : id.length = kPubkeyHexLen
  · rw [if_neg (not_not_intro exactly),if_neg (not_not_intro exactly),Wraps]
    cases key : hexArray kNodeIdSize id with
    | none =>
      have rejected (port : Option (BitVec 16)) : (port.bind fun port =>
          (none : Option NodeId).bind fun nodeId => some (generatedPeer nodeId host port)).bind portedPeer = none := by
        cases port <;> rfl
      rw [rejected]
      exact ⟨iff_of_true rfl (by simp),nofun⟩
    | some nodeId =>
      cases value : decimalValue port with
      | none =>
        refine ⟨iff_of_true ?_ (by simp),nofun⟩
        split <;> rfl
      | some number =>
        have spelled : port ≠ [] ∨ number = 0 := by
          by_cases empty : port = []
          · rw [empty,decimalValue_nil] at value
            exact Or.inr (Option.some.inj value).symm
          · exact Or.inl empty
        have differ := parsers_agree_iff nodeId host spelled
        refine ⟨?_,?_⟩
        · simp only [Option.map_some,Option.bind_some,Option.bind_assoc,exactly,Option.isSome_some,true_and,Option.some.injEq,
            exists_eq_left']
          exact differ
        · intro peer accepted
          simp only [Option.map_some,Option.bind_some] at accepted
          split at accepted
          · cases accepted
          · cases accepted
            exact ⟨number,rfl,BitVec.toNat_ofNat number 16⟩
  · rw [if_pos exactly,if_pos exactly]
    exact ⟨iff_of_true rfl fun wraps => exactly wraps.1,nofun⟩

def zeroId : Text := List.replicate kPubkeyHexLen 0x30

theorem zeroId_shape (plain : 0x3a ∉ port) (noQuery : 0x3f ∉ ascii "10.0.0.1" ++ 0x3a :: port) :
    EnodeShape zeroId (ascii "10.0.0.1") port :=
  ⟨by decide +kernel,plain,noQuery⟩

theorem discovery_port_plain : ¬ Wraps zeroId (ascii "30303") := by
  rintro ⟨_,_,number,value,large,_⟩
  have spelled : decimalValue (ascii "30303") = some 30303 := by decide +kernel
  cases value.symm.trans spelled
  exact absurd large (by decide)

theorem discovery_port_agrees : enodePeer (enodeUri zeroId (ascii "10.0.0.1") (ascii "30303")) =
      (makeValidatedPeerFromEnode (enodeUri zeroId (ascii "10.0.0.1") (ascii "30303"))).bind portedPeer :=
  (enode_uris_agree_iff zeroId (ascii "10.0.0.1") (ascii "30303")
    (zeroId_shape (by decide +kernel) (by decide +kernel))).1.mpr discovery_port_plain

theorem port_95839_wraps : enodePeer (enodeUri zeroId (ascii "10.0.0.1") (ascii "95839")) =
        some ⟨.zeros 64,ascii "10.0.0.1",30303,30303,none⟩ ∧
      makeValidatedPeerFromEnode (enodeUri zeroId (ascii "10.0.0.1") (ascii "95839")) = none ∧
      decimalValue (ascii "95839") = some 95839 ∧ EnodeShape zeroId (ascii "10.0.0.1") (ascii "95839") :=
  ⟨by decide +kernel,by decide +kernel,by decide +kernel,zeroId_shape (by decide +kernel) (by decide +kernel)⟩

end EvmRelay.Discv5
