import EvmRelay.Discv5Agreement
import EvmRelay.Machine

namespace EvmRelay.Discv5
open Rlp Enr

def askedStep (key : String) (before : List (List UInt8)) : Event → List (List UInt8)
  | .opened other => if other = key then [] else before
  | .asked other reqId => if other = key then before ++ [reqId] else before
  | _ => before

def askedAfter (key : String) (before : List (List UInt8)) (events : List Event) : List (List UInt8) :=
  events.foldl (askedStep key) before

def askedOn (log : List Event) (key : String) : List (List UInt8) := askedAfter key [] log

theorem askedAfter_append :
    askedAfter key before (first ++ second) = askedAfter key (askedAfter key before first) second := List.foldl_append

def Untouched (key : String) (events : List Event) : Prop := ∀ before,askedAfter key before events = before

def Quiet (events : List Event) : Prop := ∀ key,Untouched key events

theorem Untouched.append (one : Untouched key first) (two : Untouched key second) : Untouched key (first ++ second) := by
  intro before
  rw [askedAfter_append,one,two]

theorem Quiet.append (one : Quiet first) (two : Quiet second) : Quiet (first ++ second) := fun key => (one key).append (two key)

def KeepsRequests (client after : Discv5Client) : Prop :=
  ∀ key pending,after.pendingRequests key = some pending →
    ∃ before,client.pendingRequests key = some before ∧ before.reqId = pending.reqId

-- A handshake packet that passes every check but the last, its decryption.
def UndecryptedHandshake (crypto : Crypto) (text : AddressText) (config : Discv5Config) (client : Discv5Client) (data : ByteView)
    (sender : Endpoint) : Prop :=
  ∃ packet session error,decodePacket crypto.aesCtr data (localNodeAddr crypto config) = .ok packet ∧ packet.flag = kFlagHandshake ∧
    checkHandshake crypto text config (client.sentChallenges sender.key) packet = .ok session ∧
    decryptGcm crypto session.readKey packet.nonce packet.msgData packet.headerData = .error error

inductive PacketEffect (client : Discv5Client) (key : String) (undecrypted : Prop) (handled : Handled) : Prop where
  | kept (sessions : handled.client.sessions = client.sessions) (open_ : handled.verdict ≠ .handshake)
      (readable : ¬ undecrypted) (quiet : Quiet handled.events) (requests : KeepsRequests client handled.client)
  | dropped (sessions : handled.client.sessions = Function.update client.sessions key none)
      (failed : undecrypted) (quiet : Quiet handled.events) (requests : KeepsRequests client handled.client)
  | opened (session : SessionState) (sessions : handled.client.sessions = Function.update client.sessions key (some session))
      (open_ : handled.verdict = .handshake)
      (events : ∀ other before,askedAfter other before handled.events = if key = other then [] else before)
      (requests : KeepsRequests client handled.client)

theorem KeepsRequests.of_eq (same : after.pendingRequests = client.pendingRequests) : KeepsRequests client after := by
  intro key pending found
  rw [same] at found
  exact ⟨pending,found,rfl⟩

section effects
variable {sender : Endpoint} {undecrypted : Prop}

theorem PacketEffect.after (before : Quiet events) (effect : PacketEffect client key undecrypted handled) :
    PacketEffect client key undecrypted (handled.after events) := by
  cases effect with
  | kept sessions open_ readable quiet requests => exact .kept sessions open_ readable (before.append quiet) requests
  | dropped sessions failed quiet requests => exact .dropped sessions failed (before.append quiet) requests
  | opened session sessions open_ later requests =>
    refine .opened session sessions open_ ?_ requests
    intro other asked
    show askedAfter other asked (events ++ handled.events) = _
    rw [askedAfter_append,before,later]

section readable
variable (readable : ¬ undecrypted)
include readable

theorem PacketEffect.idle (open_ : verdict ≠ .handshake) (quiet : Quiet events) :
    PacketEffect client key undecrypted ⟨client,verdict,events⟩ := .kept rfl open_ readable quiet (.of_eq rfl)

theorem handleWhoareyou_effect : PacketEffect client key undecrypted (handleWhoareyou client packet sender) := by
  unfold handleWhoareyou
  split
  · exact .idle readable nofun fun _ _ => rfl
  split
  · exact .idle readable nofun fun _ _ => rfl
  split
  · exact .idle readable nofun fun _ _ => rfl
  rename_i pending found same
  refine .kept rfl nofun readable (fun _ _ => rfl) ?_
  intro other after stored
  have stored : Function.update client.pendingRequests sender.key (some _) other = some after := stored
  by_cases here : other = sender.key
  · subst here
    rw [Function.update_self] at stored
    cases stored
    exact ⟨pending,found,rfl⟩
  · rw [Function.update_of_ne here] at stored
    exact ⟨after,stored,rfl⟩

theorem handlePlaintext_effect : PacketEffect client key undecrypted (handlePlaintext crypto text client session sender plaintext) := by
  -- No branch changes the client.
  unfold handlePlaintext handleNodes handleFindnode
  dsimp only
  repeat' split
  all_goals exact .idle readable nofun fun _ _ => rfl

theorem handleMessage_effect : PacketEffect client key undecrypted (handleMessage crypto text client packet sender) := by
  apply PacketEffect.after fun _ _ => rfl
  split
  · exact .idle readable nofun fun _ _ => rfl
  dsimp only
  split
  · exact .idle readable nofun fun _ _ => rfl
  · split
    · exact .idle readable nofun fun _ _ => rfl
    · split
      · exact .idle readable nofun fun _ _ => rfl
      · exact handlePlaintext_effect readable

end readable

theorem acceptHandshake_effect (stored : client.sessions = Function.update before.sessions sender.key (some session))
    (requests : client.pendingRequests = before.pendingRequests) : PacketEffect before sender.key undecrypted (acceptHandshake client session sender plaintext) := by
  have made : ∀ other asked (later : List Event),Quiet later →
      askedAfter other asked ([.opened sender.key,.count .handshakePackets] ++ later) = if sender.key = other then [] else asked := by
    intro other asked later quiet
    rw [askedAfter_append,quiet]
    rfl
  unfold acceptHandshake
  split
  · exact .opened session stored rfl (fun other asked => made other asked [] fun _ _ => rfl) (.of_eq requests)
  split
  · split
    · exact .opened session stored rfl (fun other asked => made other asked [] fun _ _ => rfl) (.of_eq requests)
    · rename_i reqId _
      refine .opened { session with lastReqId := reqId } ?_ rfl (fun other asked => made other asked _ fun _ _ => rfl) (.of_eq requests)
      show Function.update client.sessions sender.key _ = _
      rw [stored,Function.update_idem]
  · exact .opened session stored rfl (fun other asked => made other asked [] fun _ _ => rfl) (.of_eq requests)

theorem handleHandshake_effect (fails : undecrypted ↔ ∃ session error,
      checkHandshake crypto text config (client.sentChallenges sender.key) packet = .ok session ∧
      decryptGcm crypto session.readKey packet.nonce packet.msgData packet.headerData = .error error) :
    PacketEffect client sender.key undecrypted (handleHandshake crypto text config client packet sender) := by
  have unchecked (refused : ∀ session,checkHandshake crypto text config (client.sentChallenges sender.key) packet ≠ .ok session) :
      ¬ undecrypted := by
    intro failed
    obtain ⟨session,_,checked,_⟩ := fails.mp failed
    exact refused session checked
  apply PacketEffect.after fun _ _ => rfl
  split
  · rename_i aborted
    exact .idle (unchecked (by simp [aborted])) nofun fun _ _ => rfl
  · rename_i rejected
    exact .idle (unchecked (by simp [rejected])) nofun fun _ _ => rfl
  · rename_i session checked
    split
    · rename_i error failed
      refine .dropped ?_ (fails.mpr ⟨session,error,checked,failed⟩) (fun _ _ => rfl) (.of_eq rfl)
      show Function.update (Function.update _ _ _) _ _ = _
      rw [Function.update_idem]
    · exact acceptHandshake_effect rfl rfl

theorem handlePacket_effect (data : ByteView) : PacketEffect client sender.key
    (UndecryptedHandshake crypto text config client data sender) (handlePacket crypto text config client data sender) := by
  unfold handlePacket UndecryptedHandshake
  split
  · rename_i failed
    exact .idle (by simp [failed]) nofun fun _ _ => rfl
  rename_i packet decoded
  have unflagged (other : packet.flag ≠ kFlagHandshake) : ¬ UndecryptedHandshake crypto text config client data sender := by
    rintro ⟨_,_,_,found,flag,_⟩
    cases decoded.symm.trans found
    exact other flag
  split
  · rename_i flag
    exact handleWhoareyou_effect (unflagged (by rw [flag]; decide))
  · split
    · rename_i flag
      exact handleMessage_effect (unflagged (by rw [flag]; decide))
    · split
      · rename_i flag
        exact handleHandshake_effect (by simp [decoded,flag])
      · rename_i flag
        exact .idle (unflagged flag) nofun fun _ _ => rfl

end effects

def Verdict.accepts : Verdict → Bool
  | .rejected _ | .aborted => false
  | _ => true

-- A packet that is turned down leaves the sessions alone, except that a
-- handshake which only fails to decrypt takes the sender's session with it.
theorem refused_packet_keeps_sessions_iff (crypto : Crypto) (text : AddressText) (config : Discv5Config) (client : Discv5Client)
    (data : ByteView) (sender : Endpoint) (refused : (handlePacket crypto text config client data sender).verdict.accepts = false) :
    (∀ key,key ≠ sender.key → (handlePacket crypto text config client data sender).client.sessions key = client.sessions key) ∧
    ((handlePacket crypto text config client data sender).client.sessions = client.sessions ↔
      ¬ (UndecryptedHandshake crypto text config client data sender ∧ (client.sessions sender.key).isSome)) := by
  have effect : PacketEffect client sender.key _ (handlePacket crypto text config client data sender) := handlePacket_effect data
  cases effect with
  | kept sessions _ readable _ _ =>
    refine ⟨fun key _ => by rw [sessions],fun _ both => readable both.1,fun _ => sessions⟩
  | dropped sessions failed _ _ =>
    refine ⟨?_,?_⟩
    · intro key other
      rw [sessions,Function.update_of_ne other]
    · rw [sessions,Function.update_eq_self_iff,and_iff_right failed]
      cases client.sessions sender.key <;> simp
  | opened session _ open_ _ _ =>
    rw [open_] at refused
    cases refused

def acceptedNode : Handled := handlePacket standIn dottedText (nodeConfig 2) whoareyouSent.client answerData (nodeEnd 1)

def establishedNode : Discv5Client :=
  (sendWhoareyou standIn (goodDraws 2) acceptedNode.client (nodeEnd 1) (localNodeAddr standIn (nodeConfig 1)) (.copy 12 [1])).client

def cutAnswer : ByteView := receiveBuffer answerSent.packet.dropLast

theorem replayed_answer_keeps_session : (acceptedNode.client.sessions (nodeEnd 1).key).isSome ∧
    (handlePacket standIn dottedText (nodeConfig 2) acceptedNode.client answerData (nodeEnd 1)).client.sessions =
      acceptedNode.client.sessions := by
  have used : acceptedNode.client.sentChallenges (nodeEnd 1).key = none := by decide +kernel
  refine ⟨by decide +kernel,(refused_packet_keeps_sessions_iff standIn dottedText (nodeConfig 2) acceptedNode.client answerData
    (nodeEnd 1) (by decide +kernel)).2.mpr ?_⟩
  rintro ⟨⟨packet,_,_,_,_,checked,_⟩,_⟩
  rw [used] at checked
  unfold checkHandshake at checked
  split at checked
  · cases checked
  · cases checked

theorem cut_answer_drops_session :
    (handlePacket standIn dottedText (nodeConfig 2) establishedNode cutAnswer (nodeEnd 1)).verdict = .rejected .handshakeDecrypt ∧
    (establishedNode.sessions (nodeEnd 1).key).isSome ∧
    (handlePacket standIn dottedText (nodeConfig 2) establishedNode cutAnswer (nodeEnd 1)).client.sessions (nodeEnd 1).key = none := by
  decide +kernel

end EvmRelay.Discv5
