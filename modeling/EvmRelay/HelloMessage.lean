import EvmRelay.AuthHandshake
import EvmRelay.Capabilities

namespace EvmRelay.Rlpx
open Rlp RlpSpec Reader

structure HelloMessage where
  protocolVersion : UInt8
  clientId : List UInt8
  capabilities : List Capability
  listenPort : BitVec 16
  nodeId : FixedBytes kPublicKeySize
  deriving DecidableEq

def orInvalidMessage : Except ε α → Except SessionError α
  | .ok value => .ok value
  | .error _ => .error .kInvalidMessage

theorem orInvalidMessage_ok : orInvalidMessage ran = .ok value ↔ ran = .ok value := by
  cases ran with
  | ok _ => exact ⟨fun same => congrArg Except.ok (Except.ok.inj same),fun same => congrArg Except.ok (Except.ok.inj same)⟩
  | error _ => exact ⟨nofun,nofun⟩

def writeCapability (cap : Capability) : Encoder := writeList do
  addBytes cap.name
  addUint8 cap.version.toBitVec

namespace HelloMessage

def encode (msg : HelloMessage) : Except SessionError (List UInt8) :=
  orInvalidMessage (finalizeEncoding (writeList do
    addUint8 msg.protocolVersion.toBitVec
    addBytes msg.clientId
    writeList (msg.capabilities.forM writeCapability)
    addUint16 msg.listenPort
    addBytes msg.nodeId.toList))

-- bytes.empty() ? 0 : bytes[0]
def versionOf (bytes : List UInt8) : UInt8 := bytes.headD 0

-- One round of the capability loop: none where it breaks off; otherwise what it
-- appends, if anything, and the view that the next round sees. A name or a
-- version that cannot be read leaves the decoder where it stands.
def capabilityRound (decoder : ByteView) : Option (Option Capability × ByteView) :=
  match isList decoder with
  | .ok true =>
    match readListHeaderBytes decoder with
    | .error _ => none
    | .ok (_,decoder) =>
      match readBytes decoder with
      | .error _ => some (none,decoder)
      | .ok (nameBytes,decoder) =>
        match readBytes decoder with
        | .error _ => some (none,decoder)
        | .ok (verBytes,decoder) => some (some ⟨nameBytes,versionOf verBytes⟩,decoder)
  | _ => none

def readCapabilities : Nat → ByteView → List Capability × ByteView
  | 0,decoder => ([],decoder)
  | fuel + 1,decoder =>
    if isFinished decoder then ([],decoder)
    else
      match capabilityRound decoder with
      | none => ([],decoder)
      | some (cap,decoder) =>
        let (capabilities,decoder) := readCapabilities fuel decoder
        (cap.toList ++ capabilities,decoder)

-- The sizes that the two list headers announce are not looked at.
def decode (rlpData : ByteView) : Except SessionError HelloMessage :=
  orInvalidMessage (do
    let (_,decoder) ← readListHeaderBytes rlpData
    let (versionBytes,decoder) ← readBytes decoder
    let (clientIdBytes,decoder) ← readBytes decoder
    let (_,decoder) ← readListHeaderBytes decoder
    let (capabilities,decoder) := readCapabilities decoder.length decoder
    let (port,decoder) ← readUnsigned (.integral .uint16) decoder
    let (idBytes,_) ← readBytes decoder
    if idBytes.length ≠ kPublicKeySize then .error .kUnexpectedLength
    else .ok ⟨versionOf versionBytes,clientIdBytes,capabilities,port,.copy kPublicKeySize idBytes⟩)

def pairWire (pair : List UInt8 × List UInt8) : List UInt8 := encodeList (encodeString pair.1 ++ encodeString pair.2)

def pairCapability (pair : List UInt8 × List UInt8) : Capability := ⟨pair.1,versionOf pair.2⟩

theorem pairWire_parts : pairWire pair ++ back =
      listHeader (encodeString pair.1 ++ encodeString pair.2).length ++ (encodeString pair.1 ++ (encodeString pair.2 ++ back)) := by
  rw [pairWire,encodeList,List.append_assoc,List.append_assoc]

theorem pairWire_append_ne_nil (pair : List UInt8 × List UInt8) : pairWire pair ++ back ≠ [] := by
  intro empty
  have positive : 0 < (pairWire pair).length := encodeList_pos _
  rw [(List.append_eq_nil_iff.mp empty).1] at positive
  exact absurd positive (Nat.lt_irrefl 0)

theorem capabilityRound_pair (spelled : v.bytes = pairWire pair ++ rest.bytes) :
    capabilityRound v = some (some (pairCapability pair),rest) := by
  have list : isList v = .ok true := isList_announced ((peekHeader_exact v _).mp (peekHeader_encodeList spelled))
  rw [pairWire_parts] at spelled
  obtain ⟨inside,opened,within⟩ := listHeader_reads spelled (by
    rw [← List.append_assoc]
    exact (List.sublist_append_left _ _).length_le)
  obtain ⟨after,within,behind⟩ := inside.cut within
  have named := (readBytes_exact inside pair.1 after).mpr within
  have numbered := (readBytes_exact after pair.2 rest).mpr behind
  simp only [capabilityRound,list,opened,named,numbered,pairCapability]

theorem readCapabilities_stops (fuel : Nat) (next : isList v ≠ .ok true) : readCapabilities fuel v = ([],v) := by
  have none : capabilityRound v = none := by
    unfold capabilityRound
    split
    · rename_i list
      exact absurd list next
    · rfl
  cases fuel with
  | zero => rfl
  | succ fuel =>
    rw [readCapabilities,none]
    exact ite_self _

theorem readCapabilities_pairs (pairs : List (List UInt8 × List UInt8)) (fuel : Nat) (v : ByteView) (enough : pairs.length ≤ fuel)
    (spelled : v.bytes = pairs.flatMap pairWire ++ rest.bytes) (next : isList rest ≠ .ok true) :
    readCapabilities fuel v = (pairs.map pairCapability,rest) := by
  induction pairs generalizing fuel v with
  | nil =>
    have same : v = rest := Input.ext spelled
    rw [same]
    exact readCapabilities_stops fuel next
  | cons pair pairs ih =>
    cases fuel with
    | zero => exact absurd enough (Nat.not_succ_le_zero _)
    | succ fuel =>
      rw [List.flatMap_cons,List.append_assoc] at spelled
      obtain ⟨after,front,behind⟩ := v.cut spelled
      have some : ¬ isFinished v = true := by
        intro finished
        have empty : v.bytes = [] := List.isEmpty_iff.mp finished
        exact pairWire_append_ne_nil pair (spelled.symm.trans empty)
      rw [readCapabilities,if_neg some,capabilityRound_pair front]
      dsimp only
      rw [ih fuel after (Nat.le_of_succ_le_succ enough) behind]
      rfl

-- What a HELLO says in front of the port, with each version as it is spelled.
structure Advertisement where
  protocolVersion : List UInt8
  clientId : List UInt8
  capabilities : List (List UInt8 × List UInt8)
  deriving DecidableEq

namespace Advertisement

def wire (a : Advertisement) : List UInt8 :=
  encodeString a.protocolVersion ++ (encodeString a.clientId ++ encodeList (a.capabilities.flatMap pairWire))

theorem wire_parts (a : Advertisement) : a.wire ++ back = encodeString a.protocolVersion ++ (encodeString a.clientId ++
      (listHeader (a.capabilities.flatMap pairWire).length ++ (a.capabilities.flatMap pairWire ++ back))) := by
  rw [wire,List.append_assoc,List.append_assoc,encodeList,List.append_assoc]

def Opens (a : Advertisement) (bytes behind : List UInt8) : Prop :=
  ∃ size,bytes = listHeader size ++ (a.wire ++ behind) ∧ size ≤ (a.wire ++ behind).length

def Plain (version : List UInt8) : Prop := version.length ≤ 1 ∨ BigEndian.value version = 0

instance (version : List UInt8) : Decidable (Plain version) := inferInstanceAs (Decidable (_ ∨ _))

theorem plain_iff : BigEndian.value version = (versionOf version).toNat ↔ Plain version := by
  unfold Plain
  cases version with
  | nil => simp [versionOf]
  | cons first more =>
    rw [versionOf,List.headD_cons,BigEndian.value_cons]
    cases more with
    | nil => simp
    | cons second more =>
      have wide : 256 ≤ 256 ^ (second :: more).length := Nat.le_self_pow (by simp) 256
      constructor
      · intro same
        have zero : first.toNat = 0 := by
          by_contra positive
          have twice : first.toNat * 2 ≤ first.toNat * 256 ^ (second :: more).length := Nat.mul_le_mul_left _ (by omega)
          omega
        exact Or.inr (by omega)
      · intro told
        rcases told with short | zero
        · simp at short
        · have nothing : first.toNat * 256 ^ (second :: more).length = 0 := by omega
          rcases Nat.mul_eq_zero.mp nothing with none | none
          · omega
          · omega

theorem pair_same (same : pairWire pair ++ back = pairWire other ++ rest)
    (small : (pairWire pair ++ back).length < sizeLimit) : pair = other ∧ back = rest := by
  rw [pairWire_parts] at same small
  rw [pairWire_parts] at same
  obtain ⟨_,same⟩ := listHeader_same same (by simp) (by simp) small
  have small := back_fits small
  obtain ⟨names,same⟩ := encodeString_same same small
  obtain ⟨versions,same⟩ := encodeString_same same (back_fits small)
  exact ⟨Prod.ext names versions,same⟩

theorem pairs_same (pairs others : List (List UInt8 × List UInt8)) (same : pairs.flatMap pairWire = others.flatMap pairWire)
    (small : (pairs.flatMap pairWire).length < sizeLimit) : pairs = others := by
  induction pairs generalizing others with
  | nil =>
    cases others with
    | nil => rfl
    | cons other others =>
      exact absurd same.symm (pairWire_append_ne_nil other)
  | cons pair pairs ih =>
    cases others with
    | nil => exact absurd same (pairWire_append_ne_nil pair)
    | cons other others =>
      obtain ⟨rfl,behind⟩ := pair_same same small
      rw [ih others behind (back_fits small)]

theorem opens_same {a b : Advertisement} (one : a.Opens bytes behind) (two : b.Opens bytes after) (small : bytes.length < sizeLimit) :
    a = b := by
  obtain ⟨size,spelled,room⟩ := one
  obtain ⟨other,again,fits⟩ := two
  rw [spelled] at small again
  obtain ⟨_,same⟩ := listHeader_same again room fits small
  have small := back_fits small
  rw [wire_parts] at same small
  rw [wire_parts] at same
  obtain ⟨versions,same⟩ := encodeString_same same small
  have small := back_fits small
  obtain ⟨names,same⟩ := encodeString_same same small
  have small := back_fits small
  obtain ⟨sizes,same⟩ := listHeader_same same (by simp) (by simp) small
  have pairs := pairs_same _ _ (List.append_inj same sizes).1 (front_fits (back_fits small))
  cases a
  cases b
  cases versions
  cases names
  cases pairs
  rfl

def numbers (a : Advertisement) : List (List UInt8 × Nat) := a.capabilities.map fun pair => (pair.1,BigEndian.value pair.2)

def numbered (cap : Capability) : List UInt8 × Nat := (cap.name,cap.version.toNat)

theorem numbered_injective : Function.Injective numbered := by
  intro one other same
  cases one
  cases other
  obtain ⟨rfl,version⟩ := Prod.mk.inj same
  cases UInt8.toNat_inj.mp version
  rfl

theorem numbered_plain (a : Advertisement) :
    (a.capabilities.map pairCapability).map numbered = a.numbers ↔ ∀ pair ∈ a.capabilities,Plain pair.2 := by
  rw [List.map_map,numbers,List.map_inj_left]
  refine forall₂_congr fun pair _ => ?_
  constructor
  · intro same
    exact plain_iff.mp (Prod.mk.inj same).2.symm
  · intro plain
    exact Prod.ext rfl (plain_iff.mpr plain).symm

-- Every version is plain, and what comes behind the list is not a list again.
def Readable (a : Advertisement) (bytes behind : List UInt8) : Prop :=
  a.Opens bytes behind ∧ Plain a.protocolVersion ∧ (∀ pair ∈ a.capabilities,Plain pair.2) ∧
    ∀ first more,behind = first :: more → first.toNat < kShortListOffset

end Advertisement

-- The message is what these bytes say: its numbers, the pairs of the announced
-- list, and the two items right behind that list.
def Stated (bytes : List UInt8) (msg : HelloMessage) : Prop :=
  ∃ (a : Advertisement) (port rest : List UInt8),
    a.Opens bytes (port ++ (encodeString msg.nodeId.toList ++ rest)) ∧ UnsignedForm port msg.listenPort ∧
    a.clientId = msg.clientId ∧ BigEndian.value a.protocolVersion = msg.protocolVersion.toNat ∧
    a.numbers = msg.capabilities.map Advertisement.numbered

section advertised
variable {msg : HelloMessage} {a : Advertisement}

theorem isList_first_iff : isList behind ≠ .ok true ↔ ∀ first more,behind.bytes = first :: more → first.toNat < kShortListOffset := by
  unfold isList
  split
  · rename_i empty
    simp [empty]
  · rename_i first more spelled
    rw [spelled]
    simp

theorem capabilities_loop (within : inside.bytes = a.capabilities.flatMap pairWire ++ behind.bytes)
    (next : isList behind ≠ .ok true) :
    readCapabilities inside.length inside = (a.capabilities.map pairCapability,behind) := by
  refine readCapabilities_pairs a.capabilities _ inside ?_ within next
  have nonempty : ∀ piece ∈ a.capabilities.map pairWire,piece ≠ [] := by
    intro piece member
    obtain ⟨pair,_,rfl⟩ := List.mem_map.mp member
    exact (IsItem.list _).nonempty
  have bound := pieces_le_flatten nonempty
  rw [List.length_map,← List.flatMap_def] at bound
  rw [ByteView.length,within,List.length_append]
  omega

theorem decode_advertised (opens : a.Opens v.bytes behind.bytes) (next : isList behind ≠ .ok true) :
    decode v = .ok msg ↔ msg.protocolVersion = versionOf a.protocolVersion ∧ msg.clientId = a.clientId ∧
      msg.capabilities = a.capabilities.map pairCapability ∧
      ∃ port rest,behind.bytes = port ++ (encodeString msg.nodeId.toList ++ rest) ∧ UnsignedForm port msg.listenPort := by
  obtain ⟨size,spelled,room⟩ := opens
  obtain ⟨opened,headed,within⟩ := listHeader_reads spelled room
  rw [Advertisement.wire_parts] at within
  obtain ⟨afterVersion,version,within⟩ := opened.cut within
  obtain ⟨afterClient,client,within⟩ := afterVersion.cut within
  obtain ⟨inside,listed,within⟩ := listHeader_reads within (by simp)
  -- Up to the port there is nothing left to choose.
  unfold decode
  simp only [orInvalidMessage_ok,headed,(readBytes_exact ..).mpr version,(readBytes_exact ..).mpr client,listed,ok_bind,
    capabilities_loop within next,bind_ok,Prod.exists,readBytes_exact]
  constructor
  · rintro ⟨port,afterPort,ported,idBytes,rest,identified,ran⟩
    split_ifs at ran with size64
    cases ran
    obtain ⟨piece,ended,formed⟩ := (readUnsigned_form (.integral .uint16) behind port afterPort).mp ported
    have whole : (FixedBytes.copy kPublicKeySize idBytes).toList = idBytes := List.take_left' (not_not.mp size64)
    exact ⟨rfl,rfl,rfl,piece,rest.bytes,by rw [whole,← identified]; exact ended,formed⟩
  · rintro ⟨versioned,named,capabilities,port,rest,ended,formed⟩
    obtain ⟨afterPort,ended,portEnd⟩ := behind.cut ended
    obtain ⟨after,identified,_⟩ := afterPort.cut portEnd
    have same : FixedBytes.copy kPublicKeySize msg.nodeId.toList = msg.nodeId := by
      have whole := FixedBytes.copy_toList msg.nodeId []
      rwa [List.append_nil] at whole
    refine ⟨_,afterPort,(readUnsigned_form (.integral .uint16)).reads formed behind afterPort ended,_,after,identified,?_⟩
    rw [if_neg (not_not_intro (List.Vector.toList_length msg.nodeId)),same,← versioned,← named,← capabilities]

theorem Stated.next (formed : UnsignedForm port msg.listenPort)
    (spelled : behind.bytes = port ++ rest) : isList behind ≠ .ok true := by
  obtain ⟨payload,rfl,_⟩ := formed.string
  obtain ⟨view,spelled,_⟩ := behind.cut spelled
  obtain ⟨offset,peeked,_⟩ := string_layout spelled
  rw [isList_announced ((peekHeader_exact behind _).mp peeked)]
  simp

theorem stated_readable (read : decode v = .ok msg) (stated : Stated v.bytes msg) : ∃ a behind,Advertisement.Readable a v.bytes behind := by
  obtain ⟨a,port,rest,opens,formed,named,version,numbers⟩ := stated
  obtain ⟨size,spelled,_⟩ := id opens
  obtain ⟨opened,within⟩ := ByteView.exists_behind spelled
  obtain ⟨behind,ended⟩ := ByteView.exists_behind within
  have next := Stated.next formed ended
  rw [← ended] at opens
  obtain ⟨versioned,_,capabilities,_⟩ := (decode_advertised opens next).mp read
  refine ⟨a,behind.bytes,opens,?_,?_,isList_first_iff.mp next⟩
  · rw [← Advertisement.plain_iff,version,versioned]
  · rw [← Advertisement.numbered_plain,← capabilities,numbers]

theorem readable_decoded (readable : a.Readable v.bytes bytes) (read : decode v = .ok msg) :
    BigEndian.value a.protocolVersion = msg.protocolVersion.toNat ∧ msg.clientId = a.clientId ∧
    a.numbers = msg.capabilities.map Advertisement.numbered ∧
    ∃ port rest,bytes = port ++ (encodeString msg.nodeId.toList ++ rest) ∧ UnsignedForm port msg.listenPort := by
  obtain ⟨opens,plain,plains,next⟩ := readable
  obtain ⟨size,spelled,_⟩ := id opens
  obtain ⟨opened,within⟩ := ByteView.exists_behind spelled
  obtain ⟨behind,rfl⟩ := ByteView.exists_behind within
  obtain ⟨versioned,named,capabilities,ended⟩ := (decode_advertised opens (isList_first_iff.mpr next)).mp read
  refine ⟨(Advertisement.plain_iff.mpr plain).trans (congrArg UInt8.toNat versioned.symm),named,?_,ended⟩
  rw [capabilities,(Advertisement.numbered_plain a).mpr plains]

theorem readable_stated (readable : a.Readable v.bytes bytes) (read : decode v = .ok msg) : Stated v.bytes msg := by
  obtain ⟨version,named,numbers,port,rest,rfl,formed⟩ := readable_decoded readable read
  exact ⟨a,port,rest,readable.1,formed,named.symm,version,numbers⟩

def helloBytes (a : Advertisement) (behind : List UInt8) : List UInt8 := encodeList (a.wire ++ behind)

theorem helloBytes_opens (behind : List UInt8) : a.Opens (helloBytes a behind) behind :=
  ⟨_,rfl,Nat.le_refl _⟩

def advertised (msg : HelloMessage) : Advertisement :=
  ⟨BigEndian.minimal msg.protocolVersion.toNat,msg.clientId,
    msg.capabilities.map fun cap => (cap.name,BigEndian.minimal cap.version.toNat)⟩

def behindList (msg : HelloMessage) : List UInt8 := encodeScalar msg.listenPort.toNat ++ encodeString msg.nodeId.toList

def helloWire (msg : HelloMessage) : List UInt8 := helloBytes (advertised msg) (behindList msg)

theorem writeCapability_writes (cap : Capability) :
    Writes (writeCapability cap) (some (pairWire (cap.name,BigEndian.minimal cap.version.toNat))) :=
  ((addBytes_writes cap.name).join (addUint8_writes cap.version.toBitVec)).list

theorem encode_wire (fits : (helloWire msg).length < sizeLimit) : encode msg = .ok (helloWire msg) := by
  have capabilities := writes_each
    msg.capabilities fun cap _ => writeCapability_writes cap
  rw [Wire.each_some] at capabilities
  have writes := ((addUint8_writes msg.protocolVersion.toBitVec).join ((addBytes_writes msg.clientId).join
    (capabilities.list.join ((addUint16_writes msg.listenPort).join (addBytes_writes msg.nodeId.toList))))).list
  refine orInvalidMessage_ok.mpr ((finalizeEncoding_exact writes fits).mpr ?_)
  simp only [Wire.list_some,Wire.join_some,helloWire,helloBytes,Advertisement.wire,advertised,behindList,List.flatMap_map,
    List.append_assoc]
  rfl

theorem versionOf_minimal : versionOf (BigEndian.minimal version.toNat) = version := by
  have short : (BigEndian.minimal version.toNat).length ≤ 1 := by
    rw [BigEndian.minimal_length]
    exact BigEndian.byteLength_le (by simpa using version.toNat_lt)
  have plain := Advertisement.plain_iff.mpr (Or.inl short)
  rw [BigEndian.value_minimal] at plain
  exact UInt8.toNat_inj.mp plain.symm

theorem advertised_capabilities (msg : HelloMessage) : (advertised msg).capabilities.map pairCapability = msg.capabilities := by
  rw [advertised,List.map_map]
  refine List.map_id'' (fun cap => ?_) msg.capabilities
  exact congrArg (Capability.mk cap.name) (versionOf_minimal ..)

end advertised

theorem hello_round_trip (msg : HelloMessage) (fits : (helloWire msg).length < sizeLimit) :
    encode msg = .ok (helloWire msg) ∧ decode ⟨helloWire msg,fits⟩ = .ok msg := by
  refine ⟨encode_wire fits,?_⟩
  have formed : UnsignedForm (encodeScalar msg.listenPort.toNat) msg.listenPort := Or.inl rfl
  obtain ⟨behind,ended⟩ : ∃ behind : ByteView,behind.bytes = behindList msg := ⟨⟨_,back_fits (back_fits fits)⟩,rfl⟩
  have opens : (advertised msg).Opens (helloWire msg) behind.bytes := by
    rw [ended]
    exact helloBytes_opens _
  refine (decode_advertised (v := ⟨helloWire msg,fits⟩) opens (Stated.next formed ended)).mpr ?_
  refine ⟨versionOf_minimal.symm,rfl,(advertised_capabilities msg).symm,_,[],?_,formed⟩
  rw [ended,behindList,List.append_nil]

def oddHello : HelloMessage := ⟨255,[],[⟨[],0⟩,⟨ascii "eth",128⟩],65535,.zeros kPublicKeySize⟩

theorem odd_hello_round_trip : ∃ fits : (helloWire oddHello).length < sizeLimit,
      encode oddHello = .ok (helloWire oddHello) ∧ decode ⟨helloWire oddHello,fits⟩ = .ok oddHello :=
  ⟨by decide +kernel,hello_round_trip oddHello (by decide +kernel)⟩

theorem hello_sound (v : ByteView) (msg : HelloMessage) (read : decode v = .ok msg) :
    (Stated v.bytes msg ↔ ∃ a behind,Advertisement.Readable a v.bytes behind) ∧
    (∀ (w : ByteView) (other : HelloMessage) (a b : Advertisement) (behind after : List UInt8),
      decode w = .ok other → a.Readable v.bytes behind → b.Readable w.bytes after →
        (msg.protocolVersion = other.protocolVersion ∧ msg.capabilities = other.capabilities ↔
          BigEndian.value a.protocolVersion = BigEndian.value b.protocolVersion ∧ a.numbers = b.numbers)) := by
  refine ⟨⟨stated_readable read,?_⟩,?_⟩
  · rintro ⟨a,behind,readable⟩
    exact readable_stated readable read
  · intro w other a b behind after second one two
    obtain ⟨version,_,numbers,_⟩ := readable_decoded one read
    obtain ⟨otherVersion,_,otherNumbers,_⟩ := readable_decoded two second
    rw [version,otherVersion,numbers,otherNumbers,UInt8.toNat_inj,
      (List.map_injective_iff.mpr Advertisement.numbered_injective).eq_iff]

def helloAdvertisement (version : List UInt8) : Advertisement := ⟨[5],ascii "geth",[(ascii "eth",version)]⟩

def portAndId : List UInt8 := encodeString [] ++ (encodeString (FixedBytes.zeros kPublicKeySize).toList ++ [])

def helloView : ByteView := ⟨helloBytes (helloAdvertisement [0x44]) portAndId,by decide +kernel⟩

def eth68 : HelloMessage := ⟨5,ascii "geth",[⟨ascii "eth",68⟩],0,.zeros kPublicKeySize⟩

theorem eth68_decoded : decode helloView = .ok eth68 := by decide +kernel

theorem eth68_readable : (helloAdvertisement [0x44]).Readable helloView.bytes portAndId := by
  refine ⟨helloBytes_opens _,?_,?_,?_⟩
  · decide
  · intro pair member
    rw [List.mem_singleton.mp member]
    decide
  · intro first more spelled
    cases spelled
    decide

theorem eth68_sound : Stated helloView.bytes eth68 ∧
    (eth68.protocolVersion = eth68.protocolVersion ∧ eth68.capabilities = eth68.capabilities ↔
      BigEndian.value [5] = BigEndian.value [5] ∧ [(ascii "eth",68)] = [(ascii "eth",68)]) :=
  ⟨(hello_sound helloView eth68 eth68_decoded).1.mpr ⟨_,_,eth68_readable⟩,
    (hello_sound helloView eth68 eth68_decoded).2 helloView eth68 _ _ _ _ eth68_decoded eth68_readable eth68_readable⟩

def eth17408View : ByteView := ⟨helloBytes (helloAdvertisement [0x44,0x00]) portAndId,by decide +kernel⟩

def outsideView : ByteView :=
  ⟨helloBytes ⟨[5],ascii "geth",[]⟩ (pairWire (ascii "eth",[0x44]) ++ portAndId),by decide +kernel⟩

theorem opens_not_stated {v : ByteView} {a : Advertisement} (opens : a.Opens v.bytes behind)
    (differs : a.numbers ≠ msg.capabilities.map Advertisement.numbered) : ¬ Stated v.bytes msg := by
  rintro ⟨other,_,_,again,_,_,_,numbers⟩
  cases Advertisement.opens_same opens again v.fits
  exact differs numbers

theorem eth17408_read_as_eth68 :
    (decode eth17408View = .ok eth68 ∧ decode helloView = .ok eth68 ∧ negotiateEthVersion eth68.capabilities = 68 ∧
      (helloAdvertisement [0x44,0x00]).Opens eth17408View.bytes portAndId ∧ BigEndian.value [0x44,0x00] = 17408 ∧
      ¬ Stated eth17408View.bytes eth68) ∧ (decode outsideView = .ok eth68 ∧ ¬ Stated outsideView.bytes eth68) :=
  ⟨⟨by decide +kernel,by decide +kernel,by decide +kernel,helloBytes_opens _,by decide,
      opens_not_stated (helloBytes_opens _) (by decide +kernel)⟩,
    by decide +kernel,opens_not_stated (helloBytes_opens _) (by decide +kernel)⟩

end HelloMessage

end EvmRelay.Rlpx
