import EvmRelay.Discv4Client

namespace EvmRelay.Discv4
open Rlp ParseUtility

def Effective (client : Discv4Client) (handled : Handled) : Prop :=
  handled.client.peers ≠ client.peers ∨ handled.client.bondedSet ≠ client.bondedSet ∨
  handled.client.discoveredSet ≠ client.discoveredSet ∨ handled.client.pendingReplies ≠ client.pendingReplies ∨
  (∃ key,.cancelTimer key ∈ handled.events) ∨ ∃ ip port packet,.spawnAnswer ip port packet ∈ handled.events

theorem not_effective_idle (asleep : ∀ key,.cancelTimer key ∉ events)
    (silent : ∀ ip port packet,.spawnAnswer ip port packet ∉ events) : ¬ Effective client ⟨client,events⟩ := by
  intro effective
  rcases effective with other | other | other | other | ⟨key,woken⟩ | ⟨ip,port,packet,sent⟩
  · exact other rfl
  · exact other rfl
  · exact other rfl
  · exact other rfl
  · exact asleep key woken
  · exact silent ip port packet sent

theorem effective_woken (woken : .cancelTimer key ∈ handled.events) : Effective client handled :=
  .inr (.inr (.inr (.inr (.inl ⟨key,woken⟩))))

theorem effective_answered (sent : .spawnAnswer ip port packet ∈ handled.events) : Effective client handled :=
  .inr (.inr (.inr (.inr (.inr ⟨ip,port,packet,sent⟩))))

theorem handlePing_effective_iff :
    Effective client (handlePing crypto config now client data sender) ↔ (makePong crypto config now data sender).isSome := by
  unfold handlePing
  cases makePong crypto config now data sender with
  | none => exact iff_of_false (not_effective_idle nofun nofun) nofun
  | some packet => exact iff_of_true (effective_answered List.mem_cons_self) rfl

def Awaits (client : Discv4Client) (key : Text) (token : Hash256) (hasSlot : PendingReply → Bool) : Prop :=
  ∃ reply,client.pendingReplies key = some reply ∧ token = reply.expectedHash ∧ hasSlot reply = true

theorem settleReply_effective_iff :
    Effective client (settleReply client key token hasSlot fill) ↔ Awaits client key token hasSlot := by
  unfold settleReply Awaits
  cases found : client.pendingReplies key with
  | none => exact iff_of_false (not_effective_idle nofun nofun) (by simp)
  | some reply =>
    dsimp only
    split
    · rename_i other
      exact iff_of_false (not_effective_idle nofun nofun) (by simp [other])
    rename_i token
    split_ifs with slot
    · exact iff_of_true (effective_woken List.mem_cons_self) ⟨reply,rfl,not_not.mp token,slot⟩
    · exact iff_of_false (not_effective_idle (by simp) (by simp)) (by simp [slot])

theorem handlePong_effective_iff : Effective client (handlePong client data sender) ↔ ∃ pong,parsePong data = .ok pong ∧
        Awaits client (sender.replyKey kPacketTypePong) pong.pingHash fun reply => reply.pong.isSome := by
  unfold handlePong
  cases parsePong data with
  | error error => exact iff_of_false (not_effective_idle nofun nofun) nofun
  | ok pong => simp [settleReply_effective_iff]

theorem handleEnrResponse_effective_iff : Effective client (handleEnrResponse client data sender) ↔
      ∃ response,parseEnrResponse data = .ok response ∧
        Awaits client (sender.replyKey kPacketTypeEnrResponse) response.requestHash fun reply => reply.enrResponse.isSome := by
  unfold handleEnrResponse
  cases parseEnrResponse data with
  | error error => exact iff_of_false (not_effective_idle nofun nofun) nofun
  | ok response => simp [settleReply_effective_iff]

theorem storePeers_events (nodes : List NodeEntry) (handled : Handled) (done : event ∈ handled.events) :
    event ∈ (nodes.foldl storePeer handled).events := by
  induction nodes generalizing handled with
  | nil => exact done
  | cons node rest ih =>
    refine ih _ ?_
    unfold storePeer
    dsimp only
    split
    · exact done
    · split
      · exact List.mem_append_left _ done
      · exact done

theorem handleNeighbours_effective_iff : Effective client (handleNeighbours client data sender) ↔
      (client.pendingReplies (sender.replyKey kPacketTypeNeighbours)).isSome := by
  unfold handleNeighbours
  dsimp only
  cases client.pendingReplies (sender.replyKey kPacketTypeNeighbours) with
  | none => exact iff_of_false (not_effective_idle nofun nofun) nofun
  | some reply => exact iff_of_true (effective_woken (storePeers_events _ _ List.mem_cons_self)) rfl

-- What makes a packet of each type count. Neither its signature nor, apart
-- from the echo in a PONG, its hash is looked at.
def Acts (crypto : Crypto) (config : Discv4Config) (now : BitVec 32) (client : Discv4Client) (data : ByteView) (sender : Endpoint) :
    Prop :=
  kWireHeaderSize ≤ data.length ∧
  ((packetType data = kPacketTypePing ∧ (makePong crypto config now data sender).isSome) ∨
    (packetType data = kPacketTypePong ∧ ∃ pong,parsePong data = .ok pong ∧
      Awaits client (sender.replyKey kPacketTypePong) pong.pingHash fun reply => reply.pong.isSome) ∨
    (packetType data = kPacketTypeNeighbours ∧ (client.pendingReplies (sender.replyKey kPacketTypeNeighbours)).isSome) ∨
    (packetType data = kPacketTypeEnrResponse ∧ ∃ response,parseEnrResponse data = .ok response ∧
      Awaits client (sender.replyKey kPacketTypeEnrResponse) response.requestHash fun reply => reply.enrResponse.isSome))

theorem handlePacket_effective_iff :
    Effective client (handlePacket crypto config now client data sender) ↔ Acts crypto config now client data sender := by
  unfold handlePacket Acts
  split
  · rename_i short
    exact iff_of_false (not_effective_idle nofun nofun) fun acts => absurd acts.1 (Nat.not_le.mpr short)
  rename_i long
  have enough := Nat.le_of_not_lt long
  have idle : ¬ Effective client ⟨client,[]⟩ := not_effective_idle nofun nofun
  generalize packetType data = type
  by_cases ping : type = kPacketTypePing
  · subst ping
    simp +decide [enough,handlePing_effective_iff]
  by_cases pong : type = kPacketTypePong
  · subst pong
    simp +decide [enough,handlePong_effective_iff]
  by_cases findNode : type = kPacketTypeFindNode
  · subst findNode
    simp +decide [idle]
  by_cases neighbours : type = kPacketTypeNeighbours
  · subst neighbours
    simp +decide [enough,handleNeighbours_effective_iff]
  by_cases enrRequest : type = kPacketTypeEnrRequest
  · subst enrRequest
    simp +decide [idle]
  by_cases enrResponse : type = kPacketTypeEnrResponse
  · subst enrResponse
    simp +decide [enough,handleEnrResponse_effective_iff]
  have unknown : ¬ Effective client ⟨client,[.errorCallback type]⟩ := not_effective_idle (by simp) (by simp)
  simp only [ping,pong,findNode,neighbours,enrRequest,enrResponse,if_false,unknown,false_and,or_false,and_false]

structure SameUnsigned (data other : ByteView) : Prop where
  size : data.length = other.length
  hash : data.bytes.take kWireHashSize = other.bytes.take kWireHashSize
  payload : data.bytes.drop kWirePacketTypeOffset = other.bytes.drop kWirePacketTypeOffset

theorem SameUnsigned.body (same : SameUnsigned data other) :
    data.removePrefix kWireHeaderSize = other.removePrefix kWireHeaderSize := by
  have behind := congrArg (List.drop kWirePacketTypeSize) same.payload
  rw [List.drop_drop,List.drop_drop] at behind
  exact ByteView.ext_bytes behind

theorem handlePacket_unsigned (same : SameUnsigned data other) :
    handlePacket crypto config now client data sender = handlePacket crypto config now client other sender := by
  have type : packetType data = packetType other := congrArg (fun bytes => bytes.headD 0) same.payload
  have ping : handlePing crypto config now client data sender = handlePing crypto config now client other sender := by
    unfold handlePing makePong
    rw [same.hash]
  have pong : handlePong client data sender = handlePong client other sender := by
    unfold handlePong parsePong
    rw [same.size,type,same.body]
  have neighbours : handleNeighbours client data sender = handleNeighbours client other sender := by
    unfold handleNeighbours parseNeighbours
    rw [same.body]
  have enrResponse : handleEnrResponse client data sender = handleEnrResponse client other sender := by
    unfold handleEnrResponse parseEnrResponse
    rw [same.size,type,same.body]
  unfold handlePacket
  rw [same.size,type,ping,pong,neighbours,enrResponse]

-- No handler asks verify_packet: a packet is authenticated before use exactly
-- if it is authentic anyway or of no use, and its signature makes no difference.
theorem effects_authenticated_iff (crypto : Crypto) (config : Discv4Config) (now : BitVec 32) (client : Discv4Client)
    (data : ByteView) (sender : Endpoint) :
    ((Effective client (handlePacket crypto config now client data sender) → (verifyPacket crypto data).isOk = true) ↔
      ((verifyPacket crypto data).isOk = true ∨ ¬ Acts crypto config now client data sender)) ∧
    ∀ other,SameUnsigned data other →
      handlePacket crypto config now client data sender = handlePacket crypto config now client other sender := by
  refine ⟨?_,fun other same => handlePacket_unsigned same⟩
  rw [handlePacket_effective_iff]
  exact imp_iff_or_not

def sumDigest (bytes : List UInt8) : Hash256 :=
  .ofNat 32 (bytes.foldl (fun sum byte => 257 * sum + byte.toNat + 1) 0)

def standIn : Crypto where
  keccak256 := sumDigest
  contextCreate := true
  Signature := FixedBytes 64
  Pubkey := FixedBytes 64
  signRecoverable := fun hash key => some (⟨hash.toList ++ key.toList,by rw [List.length_append,hash.toList_length,key.toList_length]⟩,0)
  recoverableParse := fun compact recid => if recid ≤ 3 then some compact else none
  recover := fun sig hash => if sig.toList.take 32 = hash.toList then some sig else none
  pubkeySerialize := fun key => 0x04 ::ᵥ key

def freshClient : Discv4Client := ⟨fun _ => none,fun _ => false,fun _ => false,fun _ => none,true⟩

def stranger : Endpoint := ⟨⟨[10,0,0,1],rfl⟩,30303⟩

def blankPing : ByteView := ⟨List.replicate 97 0 ++ [kPacketTypePing],by decide⟩

theorem blank_ping_bonds : verifyPacket standIn blankPing = .error .kHashMismatch ∧
    freshClient.bondedSet (ascii "10.0.0.1:30303") = false ∧
    (handlePacket standIn ⟨30303,.zeros 32,.zeros 64⟩ 0 freshClient blankPing stranger).client.bondedSet (ascii "10.0.0.1:30303") = true ∧
    (handlePacket standIn ⟨30303,.zeros 32,.zeros 64⟩ 0 freshClient blankPing stranger).events ≠ [] := by
  decide +kernel

end EvmRelay.Discv4
