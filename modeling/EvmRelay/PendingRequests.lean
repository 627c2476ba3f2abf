import EvmRelay.Discv4Authentication
import EvmRelay.Discv4Pong

namespace EvmRelay.Discv4
open Rlp ParseUtility

-- What a call of ping, request_enr or find_node waits for: the slot it shares
-- with its map entry. find_node has none.
inductive Slot where
  | pong (reply : Pong)
  | enr (reply : EnrResponse)
  | neighbours
  deriving DecidableEq

inductive RequestError where
  | kNetworkSendFailed | kPongTimeout
  deriving DecidableEq

namespace Slot

def ptype : Slot → UInt8
  | pong _ => kPacketTypePong
  | enr _ => kPacketTypeEnrResponse
  | neighbours => kPacketTypeNeighbours

def entry (expectedHash : Hash256) : Slot → PendingReply
  | pong reply => ⟨some reply,none,expectedHash⟩
  | enr reply => ⟨none,some reply,expectedHash⟩
  | neighbours => ⟨none,none,expectedHash⟩

def read : Slot → Option PendingReply → Slot
  | pong _,some ⟨some reply,_,_⟩ => pong reply
  | enr _,some ⟨_,some reply,_⟩ => enr reply
  | slot,_ => slot

-- The end of a call whose timer has let it go on, and of one that could not send.
def result : Slot → Except RequestError Slot
  | pong reply => if reply.expiration ≠ 0 then .ok (pong reply) else .error .kPongTimeout
  | enr reply => if reply.recordRlp ≠ [] then .ok (enr reply) else .error .kPongTimeout
  | neighbours => .ok neighbours

def unsent : Slot → Except RequestError Slot
  | neighbours => .ok neighbours
  | _ => .error .kNetworkSendFailed

end Slot

inductive Stage where
  | sending
  | waiting
  | woken
  | returned (result : Except RequestError Slot)
  deriving DecidableEq

structure Call where
  ip : Text
  port : BitVec 16
  sentHash : Hash256
  slot : Slot
  expired : Bool
  stage : Stage
  deriving DecidableEq

namespace Call

def key (call : Call) : Text := replyKey call.ip call.port call.slot.ptype

-- timer->cancel(): it ends a wait, and does nothing before the wait has begun.
def cancel (call : Call) : Call := if call.stage = .waiting then { call with stage := .woken } else call

def receive (call : Call) (handled : Handled) : Call :=
  let call := { call with slot := call.slot.read (handled.client.pendingReplies call.key) }
  if .cancelTimer call.key ∈ handled.events then call.cancel else call

end Call

-- The client with the calls that were started. `pending` is pending_replies_: an
-- entry is known by the call that its timer and its slot belong to.
structure Requesting where
  client : Discv4Client
  calls : List Call
  pending : Text → Option Nat

inductive Request where
  | ping (ip : Text) (port : BitVec 16) (sentHash : Hash256)
  | requestEnr (ip : Text) (port : BitVec 16) (sentHash : Hash256)
  | findNode (ip : Text) (port : BitVec 16)
  | sent (i : Nat) (delivered : Bool)
  | packet (now : BitVec 32) (data : ByteView) (sender : Endpoint)
  | expire (i : Nat)
  | resume (i : Nat)
  | stop
  deriving DecidableEq

namespace Requesting

def new (client : Discv4Client) : Requesting := ⟨client,[],fun _ => none⟩

def shown (s : Requesting) : Discv4Client :=
  { s.client with pendingReplies := fun key => (s.pending key).bind fun i => s.calls[i]?.map fun call => call.slot.entry call.sentHash }

-- The statements from the entry to the send, where the coroutine is suspended.
def start (s : Requesting) (ip : Text) (port : BitVec 16) (sentHash : Hash256) (slot : Slot) : Requesting :=
  { s with
    calls := s.calls ++ [⟨ip,port,sentHash,slot,false,.sending⟩]
    pending := Function.update s.pending (replyKey ip port slot.ptype) (some s.calls.length) }

def ping (s : Requesting) (ip : Text) (port : BitVec 16) (sentHash : Hash256) : Requesting :=
  s.start ip port sentHash (.pong ⟨⟨.zeros 4,0,0⟩,.zeros 32,0,0⟩)

def requestEnr (s : Requesting) (ip : Text) (port : BitVec 16) (sentHash : Hash256) : Requesting :=
  s.start ip port sentHash (.enr ⟨.zeros 32,[]⟩)

-- find_node behind ensure_bond, which is a call of ping if anything.
def findNode (s : Requesting) (ip : Text) (port : BitVec 16) : Requesting := s.start ip port (.zeros 32) .neighbours

def change (s : Requesting) (i : Nat) (f : Call → Call) : Requesting := { s with calls := s.calls.modify i f }

-- pending_replies_.erase(key) and the return, whoever the entry belongs to.
def finish (s : Requesting) (i : Nat) (call : Call) (result : Except RequestError Slot) : Requesting :=
  { s.change i fun call => { call with stage := .returned result } with pending := Function.update s.pending call.key none }

-- async_wait on a timer that has expired ends at once.
def sent (s : Requesting) (i : Nat) (call : Call) (delivered : Bool) : Requesting :=
  if delivered then s.change i fun call => { call with stage := if call.expired then .woken else .waiting }
  else s.finish i call call.slot.unsent

def expire (s : Requesting) (i : Nat) : Requesting := s.change i fun call => { call.cancel with expired := true }

-- A PONG completes the bond.
def resume (s : Requesting) (i : Nat) (call : Call) : Requesting :=
  let s := s.finish i call call.slot.result
  match call.slot.result with
  | .ok (.pong _) => { s with client := s.client.bond (endpointText call.ip call.port) }
  | _ => s

def changeOwners (s : Requesting) (f : Call → Call) : List Call :=
  s.calls.mapIdx fun i call => if s.pending call.key = some i then f call else call

def stop (s : Requesting) : Requesting :=
  ⟨{ s.client with running := false },s.changeOwners Call.cancel,fun _ => none⟩

def packet (crypto : Crypto) (config : Discv4Config) (s : Requesting) (now : BitVec 32) (data : ByteView) (sender : Endpoint) :
    Requesting :=
  let handled := handlePacket crypto config now s.shown data sender
  { s with client := handled.client, calls := s.changeOwners fun call => call.receive handled }

def Allowed (s : Requesting) : Request → Prop
  | .ping .. | .requestEnr .. => s.client.running = true
  | .sent i _ => ∃ call ∈ s.calls[i]?,call.stage = .sending
  | .expire i => i < s.calls.length
  | .resume i => ∃ call ∈ s.calls[i]?,call.stage = .woken
  | .findNode .. | .packet .. | .stop => True

instance (s : Requesting) : DecidablePred s.Allowed
  | .ping .. | .requestEnr .. => inferInstanceAs (Decidable (s.client.running = true))
  | .sent i _ => inferInstanceAs (Decidable (∃ call ∈ s.calls[i]?,call.stage = .sending))
  | .expire i => inferInstanceAs (Decidable (i < s.calls.length))
  | .resume i => inferInstanceAs (Decidable (∃ call ∈ s.calls[i]?,call.stage = .woken))
  | .findNode .. | .packet .. | .stop => isTrue trivial

def apply (crypto : Crypto) (config : Discv4Config) (s : Requesting) : Request → Requesting
  | .ping ip port sentHash => s.ping ip port sentHash
  | .requestEnr ip port sentHash => s.requestEnr ip port sentHash
  | .findNode ip port => s.findNode ip port
  | .sent i delivered => (s.calls[i]?).elim s fun call => s.sent i call delivered
  | .packet now data sender => s.packet crypto config now data sender
  | .expire i => s.expire i
  | .resume i => (s.calls[i]?).elim s fun call => s.resume i call
  | .stop => s.stop

def machine (crypto : Crypto) (config : Discv4Config) : Machine Requesting Request := ⟨Allowed,apply crypto config⟩

end Requesting

def replyIn (data : ByteView) : Option Slot :=
  match parsePong data with
  | .ok reply => some (.pong reply)
  | .error _ => (parseEnrResponse data).toOption.map .enr

def Slot.token : Slot → Hash256
  | pong reply => reply.pingHash
  | enr reply => reply.requestHash
  | neighbours => .zeros 32

def Call.answer (call : Call) (data : ByteView) (sender : Endpoint) : Option Slot :=
  (replyIn data).filter fun reply => reply.token = call.sentHash ∧ sender.replyKey reply.ptype = call.key

theorem replyKey_ptype {one other : Slot} (same : replyKey ip port one.ptype = replyKey ip' port' other.ptype) :
    one.ptype = other.ptype := by
  have digits : ∀ ptype ∈ [kPacketTypePong,kPacketTypeEnrResponse,kPacketTypeNeighbours],
      (ascii ":" ++ decimal ptype.toNat).getLast? = some (0x30 + ptype) := by decide +kernel
  have digit (slot : Slot) (ip : Text) (port : BitVec 16) :
      (replyKey ip port slot.ptype).getLast? = some (0x30 + slot.ptype) := by
    have kind : slot.ptype ∈ [kPacketTypePong,kPacketTypeEnrResponse,kPacketTypeNeighbours] := by
      cases slot with
      | pong reply => exact .head _
      | enr reply => exact .tail _ (.head _)
      | neighbours => exact .tail _ (.tail _ (.head _))
    rw [replyKey,List.getLast?_append,digits slot.ptype kind]
    rfl
  have last := congrArg List.getLast? same
  rw [digit,digit] at last
  exact (UInt8.add_right_inj 0x30).mp (Option.some.inj last)

theorem parsePong_type (parsed : parsePong data = .ok reply) : packetType data = kPacketTypePong ∧ ¬ data.length < kWireHeaderSize := by
  unfold parsePong at parsed
  split at parsed
  · cases parsed
  · rename_i long
    split at parsed
    · cases parsed
    · rename_i type
      exact ⟨not_not.mp type,fun short => long (Nat.le_of_lt_succ short)⟩

theorem parseEnrResponse_type (parsed : parseEnrResponse data = .ok reply) :
    packetType data = kPacketTypeEnrResponse ∧ ¬ data.length < kWireHeaderSize := by
  unfold parseEnrResponse at parsed
  split at parsed
  · cases parsed
  · rename_i long
    split at parsed
    · cases parsed
    · rename_i type
      exact ⟨not_not.mp type,fun short => long (Nat.le_of_lt short)⟩

theorem parseEnrResponse_filled (parsed : parseEnrResponse data = .ok reply) : reply.recordRlp ≠ [] := by
  unfold parseEnrResponse at parsed
  split_ifs at parsed
  obtain ⟨rest,ran⟩ := returned_iff.mp parsed
  obtain ⟨⟨_,_⟩,_,ran⟩ := bind_ok.mp ran
  obtain ⟨⟨_,v⟩,_,ran⟩ := bind_ok.mp ran
  obtain ⟨h,peeked,ran⟩ := bind_ok.mp ran
  dsimp only at ran
  split_ifs at ran
  obtain ⟨_,_,ran⟩ := bind_ok.mp ran
  cases ran
  have announced := (peekHeader_exact v h).mp peeked
  have item := announced.item
  rw [← sizeAdd_small (Nat.lt_of_le_of_lt announced.room v.fits)] at item
  exact item.nonempty

theorem replyIn_pong (parsed : parsePong data = .ok reply) : replyIn data = some (.pong reply) := by
  rw [replyIn,parsed]

theorem replyIn_enr (parsed : parseEnrResponse data = .ok reply) : replyIn data = some (.enr reply) := by
  unfold replyIn
  cases pong : parsePong data with
  | error error => rw [parsed]; rfl
  | ok other => cases (parsePong_type pong).1.symm.trans (parseEnrResponse_type parsed).1

theorem replyIn_some (inside : replyIn data = some reply) :
    (∃ pong,reply = .pong pong) ∨ ∃ response,reply = .enr response ∧ parseEnrResponse data = .ok response := by
  unfold replyIn at inside
  split at inside
  · exact .inl ⟨_,(Option.some.inj inside).symm⟩
  · obtain ⟨response,parsed,rfl⟩ := Option.map_eq_some_iff.mp inside
    refine .inr ⟨response,rfl,?_⟩
    cases result : parseEnrResponse data with
    | error error => rw [result] at parsed; cases parsed
    | ok other => rw [result] at parsed; cases parsed; rfl

theorem replyIn_none (pong : ∀ reply,parsePong data ≠ .ok reply) (enr : ∀ reply,parseEnrResponse data ≠ .ok reply) :
    replyIn data = none := by
  unfold replyIn
  cases one : parsePong data with
  | ok reply => exact absurd one (pong reply)
  | error error =>
    cases other : parseEnrResponse data with
    | error error => rfl
    | ok reply => exact absurd other (enr reply)

theorem settleReply_pending (found : client.pendingReplies key = some entry) :
    (settleReply client other token hasSlot fill).client.pendingReplies key =
      some (if other = key ∧ token = entry.expectedHash ∧ hasSlot entry = true then fill entry else entry) := by
  unfold settleReply
  by_cases same : other = key
  · subst same
    rw [found]
    dsimp only
    split
    · rename_i wrong
      rw [if_neg fun matched => wrong matched.2.1]
      exact found
    rename_i token
    split
    · rename_i slot
      rw [if_pos ⟨rfl,not_not.mp token,slot⟩]
      exact Function.update_self ..
    · rename_i null
      rw [if_neg fun matched => null matched.2.2]
      exact found
  · rw [if_neg fun matched => same matched.1]
    split
    · exact found
    · split
      · exact found
      · split
        · exact (Function.update_of_ne (Ne.symm same) ..).trans found
        · exact found

theorem storePeers_pending (nodes : List NodeEntry) :
    (nodes.foldl storePeer handled).client.pendingReplies = handled.client.pendingReplies := by
  induction nodes generalizing handled with
  | nil => rfl
  | cons node rest ih =>
    rw [List.foldl_cons,ih]
    unfold storePeer
    dsimp only
    split
    · rfl
    · split
      · rfl
      · rfl

theorem Slot.read_entry (slot : Slot) (hash : Hash256) : slot.read (some (slot.entry hash)) = slot := by
  cases slot with
  | pong reply => rfl
  | enr reply => rfl
  | neighbours => rfl

-- The entry at the key of a call is filled exactly if the reply answers the call.
theorem settleReply_read {call : Call} (reply : Slot) (found : client.pendingReplies call.key = some (call.slot.entry call.sentHash))
    (inside : replyIn data = some reply) (slots : ∀ (slot : Slot) (hash : Hash256),slot.ptype = reply.ptype →
      hasSlot (slot.entry hash) = true ∧ slot.read (some (fill (slot.entry hash))) = reply) :
    call.slot.read ((settleReply client (sender.replyKey reply.ptype) reply.token hasSlot fill).client.pendingReplies call.key) =
      (call.answer data sender).getD call.slot := by
  have hash : (call.slot.entry call.sentHash).expectedHash = call.sentHash := by cases call.slot <;> rfl
  rw [settleReply_pending found,Call.answer,inside,hash]
  by_cases matched : reply.token = call.sentHash ∧ sender.replyKey reply.ptype = call.key
  · obtain ⟨slot,filled⟩ := slots call.slot call.sentHash (replyKey_ptype matched.2).symm
    rw [if_pos ⟨matched.2,matched.1,slot⟩,filled]
    simp [Option.filter,matched]
  · rw [if_neg fun others => matched ⟨others.2.1,others.1⟩,Slot.read_entry]
    simp [Option.filter,matched]

theorem handlePacket_unread (pong : ∀ reply,parsePong data ≠ .ok reply) (enr : ∀ reply,parseEnrResponse data ≠ .ok reply) :
    (handlePacket crypto config now client data sender).client.pendingReplies = client.pendingReplies := by
  have first : (handlePong client data sender).client = client := by
    unfold handlePong
    split
    · rfl
    · rename_i reply parsed
      exact absurd parsed (pong reply)
  have second : (handleEnrResponse client data sender).client = client := by
    unfold handleEnrResponse
    split
    · rfl
    · rename_i reply parsed
      exact absurd parsed (enr reply)
  have third : (handleNeighbours client data sender).client.pendingReplies = client.pendingReplies := by
    unfold handleNeighbours
    dsimp only
    split
    · rfl
    · exact storePeers_pending ..
  have fourth : (handlePing crypto config now client data sender).client.pendingReplies = client.pendingReplies := by
    unfold handlePing
    split
    · rfl
    · rfl
  unfold handlePacket
  split_ifs
  · rfl
  · exact fourth
  · rw [first]
  · rfl
  · exact third
  · rfl
  · rw [second]
  · rfl

theorem handlePacket_read {call : Call} (found : client.pendingReplies call.key = some (call.slot.entry call.sentHash)) :
    call.slot.read ((handlePacket crypto config now client data sender).client.pendingReplies call.key) =
      (call.answer data sender).getD call.slot := by
  by_cases pong : ∃ reply,parsePong data = .ok reply
  · obtain ⟨reply,parsed⟩ := pong
    obtain ⟨type,long⟩ := parsePong_type parsed
    unfold handlePacket
    rw [if_neg long,type,if_neg (by decide),if_pos rfl,handlePong,parsed]
    refine settleReply_read (.pong reply) found (replyIn_pong parsed) fun slot hash kind => ?_
    cases slot with
    | pong old => exact ⟨rfl,rfl⟩
    | enr old => cases kind
    | neighbours => cases kind
  by_cases enr : ∃ reply,parseEnrResponse data = .ok reply
  · obtain ⟨reply,parsed⟩ := enr
    obtain ⟨type,long⟩ := parseEnrResponse_type parsed
    unfold handlePacket
    rw [if_neg long,type,if_neg (by decide),if_neg (by decide),if_neg (by decide),if_neg (by decide),if_neg (by decide),if_pos rfl,
      handleEnrResponse,parsed]
    refine settleReply_read (.enr reply) found (replyIn_enr parsed) fun slot hash kind => ?_
    cases slot with
    | pong old => cases kind
    | enr old => exact ⟨rfl,rfl⟩
    | neighbours => cases kind
  · have unread := replyIn_none (fun reply parsed => pong ⟨reply,parsed⟩) fun reply parsed => enr ⟨reply,parsed⟩
    rw [handlePacket_unread (fun reply parsed => pong ⟨reply,parsed⟩) fun reply parsed => enr ⟨reply,parsed⟩,found,Slot.read_entry,
      Call.answer,unread]
    rfl

theorem Call.cancel_kept (call : Call) : call.cancel.key = call.key ∧ call.cancel.slot = call.slot ∧
    ∀ result,call.cancel.stage = .returned result ↔ call.stage = .returned result := by
  unfold Call.cancel
  split_ifs with waiting
  · refine ⟨rfl,rfl,fun result => ?_⟩
    rw [waiting]
    exact iff_of_false nofun nofun
  · exact ⟨rfl,rfl,fun _ => Iff.rfl⟩

theorem Slot.read_ptype (slot : Slot) (entry : Option PendingReply) : (slot.read entry).ptype = slot.ptype := by
  unfold Slot.read
  split
  · rfl
  · rfl
  · rfl

theorem Call.receive_kept (call : Call) (handled : Handled) : (call.receive handled).key = call.key ∧
    (call.receive handled).slot = call.slot.read (handled.client.pendingReplies call.key) ∧
    ∀ result,(call.receive handled).stage = .returned result ↔ call.stage = .returned result := by
  have key : ({ call with slot := call.slot.read (handled.client.pendingReplies call.key) } : Call).key = call.key := by
    show replyKey call.ip call.port _ = _
    rw [Slot.read_ptype]
    rfl
  unfold Call.receive
  dsimp only
  split
  · obtain ⟨same,slot,stage⟩ := Call.cancel_kept { call with slot := call.slot.read (handled.client.pendingReplies call.key) }
    exact ⟨same.trans key,slot,stage⟩
  · exact ⟨key,rfl,fun _ => Iff.rfl⟩

namespace Requesting
section runs
variable {crypto : Crypto} {s : Requesting} {i : Nat}

-- What an action puts into the slot of call i: the answer to its request, if the
-- entry is still its own.
def settled (s : Requesting) (i : Nat) : Request → Option Slot
  | .packet _ data sender =>
    (s.calls[i]?).bind fun call => if s.pending call.key = some i then call.answer data sender else none
  | _ => none

def Owned (s : Requesting) : Prop :=
  ∀ key i,s.pending key = some i → ∃ call,s.calls[i]? = some call ∧ call.key = key ∧ ∀ result,call.stage ≠ .returned result

inductive Effect (s : Requesting) (action : Request) (next : Requesting) : Prop where
  | started (call : Call) (fresh : call.stage = .sending) (blank : call.slot.result = .error .kPongTimeout ∨ call.slot = .neighbours)
      (calls : next.calls = s.calls ++ [call]) (pending : next.pending = Function.update s.pending call.key (some s.calls.length))
      (silent : ∀ i,action ≠ .sent i false) (idle : ∀ i,s.settled i action = none)
  | finished (i : Nat) (call : Call) (result : Except RequestError Slot) (found : s.calls[i]? = some call)
      (open_ : ∀ result,call.stage ≠ .returned result)
      (calls : next.calls = s.calls.modify i fun call => { call with stage := .returned result })
      (pending : next.pending = Function.update s.pending call.key none)
      (ends : (action = .sent i false ∧ result = call.slot.unsent) ∨ (action = .resume i ∧ result = call.slot.result))
      (idle : ∀ i,s.settled i action = none)
  | calm (f : Nat → Call → Call) (calls : ∀ i,next.calls[i]? = (s.calls[i]?).map (f i))
      (kept : ∀ i call,s.calls[i]? = some call → (f i call).key = call.key ∧ (f i call).slot = (s.settled i action).getD call.slot ∧
        ∀ result,(f i call).stage = .returned result ↔ call.stage = .returned result)
      (pending : ∀ key i,next.pending key = some i → s.pending key = some i) (silent : ∀ i,action ≠ .sent i false)

theorem shown_own (found : s.calls[i]? = some call) (own : s.pending call.key = some i) :
    (shown s).pendingReplies call.key = some (call.slot.entry call.sentHash) := by
  simp only [shown,own,Option.bind_some,found,Option.map_some]

theorem getElem?_changeOwners (s : Requesting) (f : Call → Call) (i : Nat) :
    (s.changeOwners f)[i]? = (s.calls[i]?).map fun call => if s.pending call.key = some i then f call else call :=
  List.getElem?_mapIdx

theorem change_effect (kept : ∀ call,s.calls[i]? = some call → (f call).key = call.key ∧ (f call).slot = call.slot ∧
      ∀ result,(f call).stage = .returned result ↔ call.stage = .returned result)
    (silent : ∀ i,action ≠ .sent i false) (idle : ∀ i,s.settled i action = none) : Effect s action (s.change i f) := by
  refine .calm (fun j call => if i = j then f call else call) (fun j => List.getElem?_modify ..) ?_ (fun _ _ same => same) silent
  intro j call found
  rw [idle]
  split_ifs with same
  · exact kept call (same ▸ found)
  · exact ⟨rfl,rfl,fun _ => Iff.rfl⟩

theorem apply_sent (found : s.calls[i]? = some call) : apply crypto config s (.sent i delivered) = s.sent i call delivered := by
  show (s.calls[i]?).elim s _ = _
  rw [found]
  rfl

theorem apply_resume (found : s.calls[i]? = some call) : apply crypto config s (.resume i) = s.resume i call := by
  show (s.calls[i]?).elim s _ = _
  rw [found]
  rfl

theorem resume_finishes (s : Requesting) (i : Nat) (call : Call) : (s.resume i call).calls = (s.finish i call call.slot.result).calls ∧
    (s.resume i call).pending = (s.finish i call call.slot.result).pending := by
  unfold resume
  split
  · exact ⟨rfl,rfl⟩
  · exact ⟨rfl,rfl⟩

theorem apply_effect (allowed : s.Allowed action) : Effect s action (s.apply crypto config action) := by
  cases action with
  | findNode ip port => exact .started _ rfl (.inr rfl) rfl rfl nofun fun _ => rfl
  | sent i delivered =>
    obtain ⟨call,found,sending⟩ := allowed
    rw [apply_sent found]
    cases delivered with
    | false => exact .finished i call call.slot.unsent found (by simp [sending]) rfl rfl (.inl ⟨rfl,rfl⟩) fun _ => rfl
    | true =>
      refine change_effect (fun other same => ⟨rfl,rfl,fun result => ?_⟩) nofun fun _ => rfl
      cases found.symm.trans same
      rw [sending]
      refine iff_of_false ?_ nofun
      split
      · nofun
      · nofun
  | packet now data sender =>
    refine .calm _ (getElem?_changeOwners s _) (fun i call found => ?_) (fun _ _ same => same) nofun
    split_ifs with own
    · obtain ⟨key,slot,stage⟩ := call.receive_kept (handlePacket crypto config now s.shown data sender)
      refine ⟨key,?_,stage⟩
      rw [slot,handlePacket_read (shown_own found own),settled,found,Option.bind_some,if_pos own]
    · refine ⟨rfl,?_,fun _ => Iff.rfl⟩
      rw [settled,found,Option.bind_some,if_neg own]
      rfl
  | expire i => exact change_effect (fun call _ => call.cancel_kept) nofun fun _ => rfl
  | resume i =>
    obtain ⟨call,found,woken⟩ := allowed
    obtain ⟨calls,pending⟩ := s.resume_finishes i call
    rw [apply_resume found]
    exact .finished i call call.slot.result found (by simp [woken]) calls pending (.inr ⟨rfl,rfl⟩) fun _ => rfl
  | stop =>
    refine .calm _ (getElem?_changeOwners s _) (fun i call found => ?_) nofun nofun
    split
    · exact call.cancel_kept
    · exact ⟨rfl,rfl,fun _ => Iff.rfl⟩
  | _ => exact .started _ rfl (.inl rfl) rfl rfl nofun fun _ => rfl

theorem Owned.step (owned : Owned s) (effect : Effect s action next) : Owned next := by
  intro key i held
  cases effect with
  | started call fresh blank calls pending silent idle =>
    rw [pending] at held
    rw [calls]
    by_cases same : key = call.key
    · subst same
      rw [Function.update_self] at held
      cases held
      exact ⟨call,List.getElem?_concat_length,rfl,by simp [fresh]⟩
    · rw [Function.update_of_ne same] at held
      obtain ⟨other,found,rest⟩ := owned key i held
      exact ⟨other,(List.getElem?_append_left (List.getElem?_eq_some_iff.mp found).1).trans found,rest⟩
  | finished j call result found open_ calls pending ends idle =>
    rw [pending] at held
    rw [calls]
    by_cases same : key = call.key
    · subst same
      rw [Function.update_self] at held
      cases held
    rw [Function.update_of_ne same] at held
    obtain ⟨other,there,rfl,running⟩ := owned key i held
    have apart : j ≠ i := by
      rintro rfl
      cases found.symm.trans there
      exact same rfl
    refine ⟨other,?_,rfl,running⟩
    rw [List.getElem?_modify,there]
    simp [apart]
  | calm f calls kept pending silent =>
    obtain ⟨call,found,rfl,running⟩ := owned key i (pending key i held)
    obtain ⟨same,_,stage⟩ := kept i call found
    refine ⟨f i call,?_,same,fun result ended => running result ((stage result).mp ended)⟩
    rw [calls,found,Option.map_some]

theorem settled_open (owned : Owned s) (found : s.calls[i]? = some call) (settles : s.settled i action = some reply)
    (result : Except RequestError Slot) : call.stage ≠ .returned result := by
  cases action with
  | packet now data sender =>
    rw [settled,found,Option.bind_some] at settles
    split at settles
    · rename_i own
      obtain ⟨other,there,_,running⟩ := owned call.key i own
      cases found.symm.trans there
      exact running result
    · cases settles
  | _ => cases settles

variable (crypto config)

-- The last reply to call i that was handled while its entry was its own.
def lastReply (i : Nat) (s : Requesting) (last : Option Slot) : List Request → Option Slot
  | [] => last
  | action :: rest => lastReply i (s.apply crypto config action) ((s.settled i action).or last) rest

theorem lastReply_snoc : lastReply crypto config i s last (past ++ [action]) =
      ((past.foldl (apply crypto config) s).settled i action).or (lastReply crypto config i s last past) := by
  induction past generalizing s last with
  | nil => rfl
  | cons first rest ih => exact ih ..

variable {crypto config}

structure Traced (unsent : Prop) (last : Option Slot) (call : Call) : Prop where
  slot : ∀ reply,last = some reply → call.slot = reply
  blank : last = none → call.slot.result = .error .kPongTimeout ∨ call.slot = .neighbours
  failed : unsent → call.stage = .returned call.slot.unsent
  ended : ¬ unsent → ∀ result,call.stage = .returned result → result = call.slot.result

structure Told (crypto : Crypto) (config : Discv4Config) (origin : Requesting) (past : List Request) (s : Requesting) : Prop where
  reached : s = past.foldl (apply crypto config) origin
  owned : Owned s
  unknown : ∀ i,s.calls[i]? = none → .sent i false ∉ past ∧ lastReply crypto config i origin none past = none
  traced : ∀ i call,s.calls[i]? = some call → Traced (.sent i false ∈ past) (lastReply crypto config i origin none past) call

theorem Traced.calm (traced : Traced unsent last call) (slot : next.slot = settles.getD call.slot)
    (stage : ∀ result,next.stage = .returned result ↔ call.stage = .returned result)
    (running : ∀ reply,settles = some reply → ∀ result,call.stage ≠ .returned result) : Traced unsent (settles.or last) next := by
  cases settles with
  | none =>
    have same : next.slot = call.slot := slot
    refine ⟨?_,?_,?_,?_⟩
    · rw [same]
      exact traced.slot
    · rw [same]
      exact traced.blank
    · intro unsent
      rw [stage,same]
      exact traced.failed unsent
    · intro sent result ended
      rw [same]
      exact traced.ended sent result ((stage result).mp ended)
  | some reply =>
    refine ⟨fun other found => slot.trans (Option.some.inj found),nofun,fun unsent => ?_,fun sent result ended => ?_⟩
    · exact absurd (traced.failed unsent) (running reply rfl _)
    · exact absurd ((stage result).mp ended) (running reply rfl _)

theorem Effect.absent (effect : Effect s action next) (absent : next.calls[i]? = none) : s.calls[i]? = none := by
  cases effect with
  | started call fresh blank calls pending silent idle =>
    rw [calls,List.getElem?_eq_none_iff,List.length_append] at absent
    exact List.getElem?_eq_none_iff.mpr (Nat.le_of_add_right_le absent)
  | finished j call result found open_ calls pending ends idle =>
    rw [calls,List.getElem?_eq_none_iff,List.length_modify] at absent
    exact List.getElem?_eq_none_iff.mpr absent
  | calm f calls kept pending silent =>
    rw [calls] at absent
    exact Option.map_eq_none_iff.mp absent

theorem settled_absent (absent : s.calls[i]? = none) : s.settled i action = none := by
  cases action with
  | packet now data sender => rw [settled,absent]; rfl
  | _ => rfl

theorem Told.step (told : Told crypto config origin past s) (allowed : s.Allowed action) :
    Told crypto config origin (past ++ [action]) (s.apply crypto config action) := by
  have effect : Effect s action (s.apply crypto config action) := apply_effect allowed
  have last (i : Nat) : lastReply crypto config i origin none (past ++ [action]) =
      (s.settled i action).or (lastReply crypto config i origin none past) := by
    rw [lastReply_snoc,← told.reached]
  have unsent (i : Nat) : .sent i false ∈ past ++ [action] ↔ .sent i false ∈ past ∨ action = .sent i false := by
    rw [List.mem_append,List.mem_singleton,eq_comm]
  have quiet {i : Nat} (other : action ≠ .sent i false) : .sent i false ∈ past ++ [action] ↔ .sent i false ∈ past := by
    rw [unsent,or_iff_left other]
  refine ⟨?_,told.owned.step effect,fun i absent => ?_,fun i call found => ?_⟩
  · rw [List.foldl_append,← told.reached]
    rfl
  · have before := effect.absent absent
    have other : action ≠ .sent i false := by
      rintro rfl
      obtain ⟨call,found,_⟩ := allowed
      cases before.symm.trans found
    rw [last,settled_absent before,quiet other]
    exact told.unknown i before
  rw [last]
  cases effect with
  | started new fresh blank calls pending silent idle =>
    rw [quiet (silent i),idle]
    rw [calls] at found
    by_cases inside : i < s.calls.length
    · rw [List.getElem?_append_left inside] at found
      exact told.traced i call found
    have absent := List.getElem?_eq_none_iff.mpr (Nat.le_of_not_lt inside)
    obtain ⟨sent,none_⟩ := told.unknown i absent
    rw [List.getElem?_append_right (Nat.le_of_not_lt inside),List.getElem?_singleton] at found
    split at found
    · cases found
      exact ⟨by simp [none_],fun _ => blank,fun failed => absurd failed sent,by simp [fresh]⟩
    · cases found
  | finished j own result there open_ calls pending ends idle =>
    rw [idle]
    rw [calls,List.getElem?_modify] at found
    by_cases same : j = i
    · subst same
      rw [there] at found
      simp only [Option.map_eq_map,Option.map_some,if_true,Option.some.injEq] at found
      subst found
      have before := told.traced j own there
      have delivered : .sent j false ∉ past := fun failed => open_ _ (before.failed failed)
      refine ⟨before.slot,before.blank,fun failed => ?_,fun sent other ended => ?_⟩
      · rcases ends with ⟨_,rfl⟩ | ⟨rfl,_⟩
        · rfl
        · rw [unsent] at failed
          exact absurd (failed.resolve_right nofun) delivered
      · rcases ends with ⟨rfl,_⟩ | ⟨_,rfl⟩
        · exact absurd ((unsent j).mpr (.inr rfl)) sent
        · exact (Stage.returned.inj ended).symm
    · have other : action ≠ .sent i false := by
        rintro rfl
        rcases ends with ⟨both,_⟩ | ⟨both,_⟩
        · exact same (Request.sent.inj both).1.symm
        · cases both
      rw [quiet other]
      simp only [Option.map_eq_map,same,if_false,Option.map_id'] at found
      exact told.traced i call found
  | calm f calls kept pending silent =>
    rw [quiet (silent i)]
    rw [calls,Option.map_eq_some_iff] at found
    obtain ⟨before,found,rfl⟩ := found
    obtain ⟨_,slot,stage⟩ := kept i before found
    exact (told.traced i before found).calm slot stage fun reply settles => settled_open told.owned found settles

theorem changed (found : s.calls[i]? = some call) : (s.change i f).calls[i]? = some (f call) := by
  simp [change,found]

def OwnEvent (i : Nat) (action : Request) : Prop := action = .sent i true ∨ action = .expire i ∨ action = .resume i

-- The call is brought to its end by its own send and its own timer.
def Returns (crypto : Crypto) (config : Discv4Config) (s : Requesting) (i : Nat) : Prop :=
  ∃ more next call result,(∀ action ∈ more,OwnEvent i action) ∧ (machine crypto config).Sequence s more next ∧
    next.calls[i]? = some call ∧ call.stage = .returned result

theorem Returns.cons (own : OwnEvent i action) (allowed : s.Allowed action)
    (returns : Returns crypto config (s.apply crypto config action) i) : Returns crypto config s i := by
  obtain ⟨more,next,call,result,events,path,ended⟩ := returns
  refine ⟨action :: more,next,call,result,?_,.cons allowed path,ended⟩
  intro event member
  rcases List.mem_cons.mp member with rfl | later
  · exact own
  · exact events event later

theorem woken_returns (found : s.calls[i]? = some call) (woken : call.stage = .woken) : Returns crypto config s i := by
  have ended : (s.resume i call).calls[i]? = some { call with stage := .returned call.slot.result } := by
    rw [(s.resume_finishes i call).1]
    exact changed found
  refine .cons (.inr (.inr rfl)) ⟨call,found,woken⟩ ?_
  rw [apply_resume found]
  exact ⟨[],_,_,_,nofun,.nil,ended,rfl⟩

theorem waiting_returns (found : s.calls[i]? = some call) (waiting : call.stage = .waiting) : Returns crypto config s i := by
  refine .cons (.inr (.inl rfl)) (List.getElem?_eq_some_iff.mp found).1 ?_
  refine woken_returns (changed found) ?_
  rw [Call.cancel,if_pos waiting]

theorem call_returns (found : s.calls[i]? = some call) : Returns crypto config s i := by
  cases stage : call.stage with
  | sending =>
    refine .cons (.inl rfl) ⟨call,found,stage⟩ ?_
    rw [apply_sent found]
    have waits := changed (f := fun call => { call with stage := if call.expired then .woken else .waiting }) found
    cases expired : call.expired with
    | true => exact woken_returns waits (by simp [expired])
    | false => exact waiting_returns waits (by simp [expired])
  | waiting => exact waiting_returns found stage
  | woken => exact woken_returns found stage
  | returned result => exact ⟨[],s,call,result,nofun,.nil,found,stage⟩

theorem settled_some (settles : s.settled i action = some reply) :
    ∃ now data sender call,action = .packet now data sender ∧ s.calls[i]? = some call ∧ call.answer data sender = some reply := by
  cases action with
  | packet now data sender =>
    obtain ⟨call,found,answered⟩ := Option.bind_eq_some_iff.mp settles
    split at answered
    · exact ⟨now,data,sender,call,rfl,found,answered⟩
    · cases answered
  | _ => cases settles

-- An answer to the request of call i was handled, at a time when the call was so.
def Handles (crypto : Crypto) (config : Discv4Config) (origin : Requesting) (actions : List Request) (i : Nat) (then_ : Call → Prop)
    (reply : Slot) : Prop :=
  ∃ front now data sender back call,actions = front ++ .packet now data sender :: back ∧
    (front.foldl (apply crypto config) origin).calls[i]? = some call ∧ then_ call ∧ call.answer data sender = some reply

theorem lastReply_handled (last : lastReply crypto config i origin none actions = some reply) :
    Handles crypto config origin actions i (fun _ => True) reply := by
  induction actions using List.reverseRecOn with
  | nil => cases last
  | append_singleton past action ih =>
    rw [lastReply_snoc] at last
    cases settles : (past.foldl (apply crypto config) origin).settled i action with
    | some other =>
      rw [settles] at last
      cases last
      obtain ⟨now,data,sender,call,rfl,found,answered⟩ := settled_some settles
      exact ⟨past,now,data,sender,[],call,rfl,found,trivial,answered⟩
    | none =>
      rw [settles] at last
      obtain ⟨front,now,data,sender,back,call,rfl,rest⟩ := ih last
      exact ⟨front,now,data,sender,back ++ [action],call,by simp,rest⟩

end runs
end Requesting

def Slot.Good : Slot → Prop
  | pong reply => reply.expiration ≠ 0
  | _ => True

theorem answer_result {call : Call} (answered : call.answer data sender = some reply) :
    reply.result = .ok found ↔ found = reply ∧ reply.Good := by
  have inside := (Option.filter_eq_some_iff.mp answered).1
  rcases replyIn_some inside with ⟨pong,rfl⟩ | ⟨response,rfl,parsed⟩
  · unfold Slot.result Slot.Good
    dsimp only
    split_ifs with good
    · rw [Except.ok.injEq,eq_comm,and_iff_left good]
    · exact iff_of_false nofun fun both => good both.2
  · unfold Slot.result Slot.Good
    dsimp only
    rw [if_pos (parseEnrResponse_filled parsed),Except.ok.injEq,eq_comm,and_true]

section overlapping
open Requesting

-- A reply is returned exactly if the send was fine and the entry still belonged
-- to the call when its last reply came; and a call takes only its own entry
-- along exactly if no other one stands there.
theorem overlapping_requests_iff (crypto : Crypto) (config : Discv4Config) (client : Discv4Client) (actions : List Request) (s : Requesting)
    (path : (machine crypto config).Sequence (.new client) actions s) :
    (∀ i call,s.calls[i]? = some call → Returns crypto config s i) ∧
    (∀ i call result,s.calls[i]? = some call → call.slot ≠ .neighbours → call.stage = .returned result →
      (∃ reply,Handles crypto config (.new client) actions i (fun call => call.expired = false) reply ∧ reply.Good) →
      ((∃ reply,result = .ok reply ∧ Handles crypto config (.new client) actions i (fun _ => True) reply) ↔
        .sent i false ∉ actions ∧ ∃ reply,lastReply crypto config i (.new client) none actions = some reply ∧ reply.Good)) ∧
    ∀ j call action,s.calls[j]? = some call → s.Allowed action → action = .sent j false ∨ action = .resume j →
      ((∀ key i,i ≠ j → s.pending key = some i → (s.apply crypto config action).pending key = some i) ↔
        ∀ i,s.pending call.key = some i → i = j) := by
  have told : Told crypto config (.new client) actions s := by
    refine path.history (Told crypto config (.new client)) ?_ fun past s action allowed told => told.step allowed
    exact ⟨rfl,nofun,fun _ _ => ⟨nofun,rfl⟩,nofun⟩
  refine ⟨fun i call found => call_returns found,?_,?_⟩
  · intro i call result found kind ended _
    have traced := told.traced i call found
    by_cases failed : .sent i false ∈ actions
    · refine iff_of_false ?_ fun sent => sent.1 failed
      rintro ⟨reply,rfl,_⟩
      have unsent := Stage.returned.inj (ended.symm.trans (traced.failed failed))
      cases slot : call.slot with
      | neighbours => exact kind slot
      | pong pong => rw [slot] at unsent; cases unsent
      | enr response => rw [slot] at unsent; cases unsent
    rw [traced.ended failed result ended]
    cases last : lastReply crypto config i (.new client) none actions with
    | none =>
      refine iff_of_false ?_ (by simp)
      rintro ⟨reply,returned,_⟩
      rcases traced.blank last with blank | neighbours
      · rw [blank] at returned
        cases returned
      · exact kind neighbours
    | some reply =>
      obtain ⟨_,_,_,_,_,_,_,_,_,answered⟩ := lastReply_handled last
      rw [traced.slot reply last]
      constructor
      · rintro ⟨_,returned,_⟩
        exact ⟨failed,reply,rfl,((answer_result answered).mp returned).2⟩
      · rintro ⟨_,_,same,good⟩
        cases same
        exact ⟨reply,(answer_result answered).mpr ⟨rfl,good⟩,lastReply_handled last⟩
  · intro j call action found allowed finishes
    have pending : (s.apply crypto config action).pending = Function.update s.pending call.key none := by
      rcases finishes with rfl | rfl
      · rw [apply_sent found]
        rfl
      · rw [apply_resume found]
        exact (s.resume_finishes j call).2
    constructor
    · intro kept i held
      by_contra other
      have left := kept call.key i other held
      rw [pending,Function.update_self] at left
      cases left
    · intro own key i other held
      have apart : key ≠ call.key := by
        rintro rfl
        exact other (own i held)
      rw [pending,Function.update_of_ne apart]
      exact held

instance : DecidablePred (Machine.Allowed (machine crypto config) s) := inferInstanceAs (DecidablePred s.Allowed)

def sampleConfig : Discv4Config := ⟨30303,.zeros 32,.zeros 64⟩

def firstHash : Hash256 := .ofNat 32 1

def secondHash : Hash256 := .ofNat 32 2

def firstPong : ByteView := ⟨({ samplePong 60 none with pingHash := firstHash }).bytes,by decide +kernel⟩

def secondPong : ByteView := ⟨({ samplePong 60 none with pingHash := secondHash }).bytes,by decide +kernel⟩

def ran (actions : List Request) : Requesting := actions.foldl (apply standIn sampleConfig) (.new freshClient)

def waitingPing (sentHash : Hash256) : Call :=
  ⟨ascii "10.0.0.1",30303,sentHash,.pong ⟨⟨.zeros 4,0,0⟩,.zeros 32,0,0⟩,false,.waiting⟩

def pingOver : List Request :=
  [.ping (ascii "10.0.0.1") 30303 firstHash,.ping (ascii "10.0.0.1") 30303 secondHash,.sent 0 true,.sent 1 true,
    .packet 0 secondPong stranger,.resume 1]

theorem later_ping_answered :
    ∃ call result,(machine standIn sampleConfig).Sequence (.new freshClient) pingOver (ran pingOver) ∧
      (ran pingOver).calls[1]? = some call ∧ call.stage = .returned result ∧
      ∃ reply,result = .ok reply ∧ Handles standIn sampleConfig (.new freshClient) pingOver 1 (fun _ => True) reply := by
  have path : (machine standIn sampleConfig).Sequence (.new freshClient) pingOver (ran pingOver) :=
    Machine.sequence_of_check (by decide +kernel)
  let pong : Pong := ⟨⟨.zeros 4,30303,30303⟩,secondHash,60,0⟩
  have found : (ran pingOver).calls[1]? =
      some { waitingPing secondHash with slot := .pong pong,stage := .returned (.ok (.pong pong)) } := by decide +kernel
  refine ⟨_,_,path,found,rfl,?_⟩
  refine ((overlapping_requests_iff standIn sampleConfig freshClient pingOver _ path).2.1 1 _ _ found nofun rfl ?_).mpr ?_
  · refine ⟨.pong pong,⟨pingOver.take 4,0,secondPong,stranger,[.resume 1],waitingPing secondHash,rfl,?_,rfl,?_⟩,?_⟩
    · decide +kernel
    · decide +kernel
    · exact (by decide : (60#32) ≠ 0)
  · exact ⟨by decide +kernel,.pong pong,by decide +kernel,(by decide : (60#32) ≠ 0)⟩

-- The second call takes over the entry of the first, whose answer is then not
-- recognised; and the first one takes the entry along when it gives up.
def pingTwice : List Request :=
  [.ping (ascii "10.0.0.1") 30303 firstHash,.ping (ascii "10.0.0.1") 30303 secondHash,.sent 0 true,.sent 1 true,
    .packet 0 firstPong stranger,.expire 0,.resume 0,.packet 0 secondPong stranger,.expire 1,.resume 1]

theorem overlapping_pings_unanswered : (machine standIn sampleConfig).Sequence (.new freshClient) pingTwice (ran pingTwice) ∧
    (ran pingTwice).calls.map Call.stage = [.returned (.error .kPongTimeout),.returned (.error .kPongTimeout)] ∧
    (∃ reply,Handles standIn sampleConfig (.new freshClient) pingTwice 0 (fun call => call.expired = false) reply ∧ reply.Good) ∧
    (∃ reply,Handles standIn sampleConfig (.new freshClient) pingTwice 1 (fun call => call.expired = false) reply ∧ reply.Good) ∧
    (ran (pingTwice.take 6)).pending (waitingPing firstHash).key = some 1 ∧
    (ran (pingTwice.take 7)).pending (waitingPing firstHash).key = none := by
  refine ⟨Machine.sequence_of_check (by decide +kernel),by decide +kernel,?_,?_,by decide +kernel,by decide +kernel⟩
  · refine ⟨.pong ⟨⟨.zeros 4,30303,30303⟩,firstHash,60,0⟩,⟨pingTwice.take 4,0,firstPong,stranger,pingTwice.drop 5,
      waitingPing firstHash,rfl,?_,rfl,?_⟩,(by decide : (60#32) ≠ 0)⟩
    · decide +kernel
    · decide +kernel
  · refine ⟨.pong ⟨⟨.zeros 4,30303,30303⟩,secondHash,60,0⟩,⟨pingTwice.take 7,0,secondPong,stranger,pingTwice.drop 8,
      waitingPing secondHash,rfl,?_,rfl,?_⟩,(by decide : (60#32) ≠ 0)⟩
    · decide +kernel
    · decide +kernel

end overlapping

end EvmRelay.Discv4
