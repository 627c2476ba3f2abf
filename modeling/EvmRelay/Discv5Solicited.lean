import EvmRelay.Discv5Sessions

namespace EvmRelay.Discv5
open Rlp Enr

def NamedRequests (requests : String → Option PendingRequest) : Prop :=
  ∀ key pending,requests key = some pending → pending.reqId ≠ []

theorem NamedRequests.update (named : NamedRequests requests) (new : ∀ pending,stored = some pending → pending.reqId ≠ []) :
    NamedRequests (Function.update requests key stored) := by
  intro other pending found
  by_cases same : other = key
  · subst same
    rw [Function.update_self] at found
    exact new pending found
  · rw [Function.update_of_ne same] at found
    exact named other pending found

-- The ids this client chose are never empty; only those are asked with. A
-- session on which something was asked waits for one of them; whether that one
-- was asked is certain as long as everything asked at that endpoint left.
structure Named (left : String → Prop) (client : Discv5Client) (log : List Event) : Prop where
  requests : NamedRequests client.pendingRequests
  sessions : ∀ key session,client.sessions key = some session → askedOn log key ≠ [] →
    session.lastReqId ≠ [] ∧ (left key → session.lastReqId ∈ askedOn log key)

section named
variable {left fewer : String → Prop}

theorem askedOn_append : askedOn (log ++ events) key = askedAfter key (askedOn log key) events := askedAfter_append ..

theorem Named.mono (named : Named left client log) (less : ∀ key,fewer key → left key) : Named fewer client log where
  requests := named.requests
  sessions := by
    intro key session found asked
    obtain ⟨nonempty,certain⟩ := named.sessions key session found asked
    exact ⟨nonempty,fun sure => certain (less key sure)⟩

theorem Named.of_quiet (named : Named left client log) (sessions : after.sessions = client.sessions)
    (requests : NamedRequests after.pendingRequests) (quiet : Quiet events) :
    Named left after (log ++ events) where
  requests := requests
  sessions := by
    intro key session found asked
    rw [sessions] at found
    rw [askedOn_append,quiet] at asked ⊢
    exact named.sessions key session found asked

theorem Named.quiet (named : Named left client log) (quiet : Quiet events) : Named left client (log ++ events) :=
  named.of_quiet rfl named.requests quiet

theorem Named.of_update (named : Named left client log)
    (sessions : after.sessions = Function.update client.sessions key stored)
    (requests : NamedRequests after.pendingRequests)
    (elsewhere : ∀ other,other ≠ key → Untouched other events)
    (here : ∀ session,stored = some session → askedOn (log ++ events) key ≠ [] →
      session.lastReqId ≠ [] ∧ (left key → session.lastReqId ∈ askedOn (log ++ events) key)) :
    Named left after (log ++ events) where
  requests := requests
  sessions := by
    intro other session found asked
    rw [sessions] at found
    by_cases same : other = key
    · subst same
      rw [Function.update_self] at found
      exact here session found asked
    · rw [Function.update_of_ne same] at found
      rw [askedOn_append,elsewhere _ same] at asked ⊢
      exact named.sessions other session found asked

theorem Named.handled (named : Named left client log) : Named left (handlePacket crypto text config client data sender).client
      (log ++ (handlePacket crypto text config client data sender).events) := by
  have effect : PacketEffect client sender.key _ (handlePacket crypto text config client data sender) := handlePacket_effect data
  have carried (requests : KeepsRequests client (handlePacket crypto text config client data sender).client) :
      NamedRequests (handlePacket crypto text config client data sender).client.pendingRequests := by
    intro key pending found
    obtain ⟨before,waiting,same⟩ := requests key pending found
    rw [← same]
    exact named.requests key before waiting
  cases effect with
  | kept sessions _ _ quiet requests => exact named.of_quiet sessions (carried requests) quiet
  | dropped sessions _ quiet requests =>
    exact named.of_update sessions (carried requests) (fun other _ => quiet other) nofun
  | opened session sessions _ events requests =>
    refine named.of_update sessions (carried requests) ?_ ?_
    · intro other different before
      rw [events,if_neg different.symm]
    · intro _ _ asked
      rw [askedOn_append,events,if_pos rfl] at asked
      exact absurd rfl asked

theorem requestId_named (peer : ValidatedPeer) : requestId peer ≠ [] := by
  intro empty
  have length := congrArg List.length empty
  simp [requestId] at length

theorem Untouched.noting {attempt failure : List Event} {sent : Sent} (before : Untouched key attempt)
    (afterwards : Untouched key failure) (inside : Untouched key sent.events) : Untouched key (sent.noting attempt failure).events := by
  refine before.append (inside.append ?_)
  split
  · exact fun _ => rfl
  · exact afterwards

theorem sendPacket_elsewhere (other : String) (different : other ≠ key) :
    Untouched other (sendPacket draws client key packet [.asked key reqId]).events := by
  unfold sendPacket
  split
  · exact fun before => if_neg different.symm
  · exact fun _ => rfl

theorem sendPacket_asked (leaves : draws.sent = true) (before : List (List UInt8)) :
    reqId ∈ askedAfter key before (sendPacket draws client key packet [.asked key reqId]).events := by
  unfold sendPacket
  rw [if_pos leaves]
  simp [askedAfter,askedStep]

theorem noting_asked {attempt failure : List Event} {sent : Sent} (afterwards : Untouched key failure)
    (inside : ∀ before,reqId ∈ askedAfter key before sent.events) (before : List (List UInt8)) :
    reqId ∈ askedAfter key before (sent.noting attempt failure).events := by
  unfold Sent.noting
  rw [askedAfter_append,askedAfter_append]
  split
  · exact inside _
  · rw [afterwards]
    exact inside _

theorem sendPacket_quiet : Quiet (sendPacket draws client key packet []).events := by
  unfold sendPacket
  split <;> exact fun _ _ => rfl

theorem sendRequest_named (named : Named left client log) :
    Named left (sendRequest crypto config draws client peer).client (log ++ (sendRequest crypto config draws client peer).events) := by
  have erased : NamedRequests (client.erasePending peer.key).pendingRequests := named.requests.update nofun
  have stored (nonce : FixedBytes 12) :
      NamedRequests ((client.erasePending peer.key).setPending peer.key (newPending peer nonce)).pendingRequests := by
    refine erased.update ?_
    intro pending same
    cases same
    exact requestId_named peer
  unfold sendRequest
  split
  · exact named.of_quiet rfl erased fun _ _ => rfl
  rename_i nonce _
  split
  · exact named.of_quiet rfl (stored nonce) fun _ _ => rfl
  split
  · exact named.of_quiet rfl ((stored nonce).update nofun) fun _ _ => rfl
  · refine named.of_quiet ?_ ?_ sendPacket_quiet
    · rw [sendPacket_client]
      rfl
    · rw [sendPacket_client]
      exact stored nonce

theorem makeHandshakePacket_names
    (made : makeHandshakePacket crypto config draws pending peer = .ok (session,packet)) : session.lastReqId = pending.reqId := by
  unfold makeHandshakePacket at made
  simp only [bind_ok] at made
  obtain ⟨_,_,_,_,_,_,_,_,_,_,_,_,_,_,_,_,_,_,made⟩ := made
  cases made
  rfl

theorem sendHandshake_named (named : Named left client log) (leaves : left peer.key → draws.sent = true) {pending : PendingRequest}
    (nonempty : pending.reqId ≠ []) : Named left (sendHandshake crypto config draws client pending peer).client
      (log ++ (sendHandshake crypto config draws client pending peer).events) := by
  unfold sendHandshake
  cases made : makeHandshakePacket crypto config draws pending peer with
  | error error => exact named.quiet fun _ => Untouched.noting (fun _ => rfl) (fun _ => rfl) fun _ => rfl
  | ok result =>
    obtain ⟨session,packet⟩ := result
    have stays (sent : Sent) (attempt failure : List Event) : (sent.noting attempt failure).client = sent.client := rfl
    rw [stays,stays,sendPacket_client]
    have sessions : ((client.setSession peer.key session).erasePending peer.key).sessions =
        Function.update client.sessions peer.key (some session) := rfl
    refine named.of_update sessions (named.requests.update nofun) ?_ ?_
    · intro other different
      refine Untouched.noting (fun _ => rfl) (fun _ => rfl) ?_
      exact Untouched.noting (fun _ => if_neg different.symm) (fun _ => rfl) (sendPacket_elsewhere other different)
    · intro other same _
      cases same
      rw [makeHandshakePacket_names made,askedOn_append]
      refine ⟨nonempty,fun sure => ?_⟩
      exact noting_asked (fun _ => rfl) (noting_asked (fun _ => rfl) (sendPacket_asked (leaves sure))) _

theorem sendFindnode_named (named : Named left client log) (leaves : left peer.key → draws.sent = true) :
    Named left (sendFindnode crypto config draws client peer).client (log ++ (sendFindnode crypto config draws client peer).events) := by
  unfold sendFindnode
  split
  · split
    · exact named.quiet fun _ _ => rfl
    · rw [sendPacket_client]
      refine named.of_update rfl named.requests sendPacket_elsewhere ?_
      intro other same _
      cases same
      rw [askedOn_append]
      exact ⟨requestId_named peer,fun sure => sendPacket_asked (leaves sure) _⟩
  · split
    · exact sendRequest_named named
    · rename_i pending waiting
      split
      · exact sendHandshake_named named leaves (named.requests _ _ waiting)
      · exact sendRequest_named named

theorem Named.more (named : Named left client (log ++ events)) (quiet : Quiet later) : Named left client (log ++ (events ++ later)) := by
  rw [← List.append_assoc]
  exact named.quiet quiet

theorem runTask_named (named : Named left client log) (task : Task)
    (leaves : ∀ peer,task = .sendFindnode peer → left peer.key → draws.sent = true) :
    Named left (runTask crypto config draws client task).client (log ++ (runTask crypto config draws client task).events) := by
  cases task with
  | sendFindnode peer =>
    unfold runTask Sent.noting
    dsimp only
    rw [List.nil_append]
    refine (sendFindnode_named named (leaves peer rfl)).more ?_
    split <;> exact fun _ _ => rfl
  | sendWhoareyou sender remoteNodeAddr requestNonce =>
    unfold runTask sendWhoareyou
    dsimp only
    split
    · exact named.quiet fun _ _ => rfl
    · split
      · exact named.quiet fun _ _ => rfl
      · rw [sendPacket_client]
        exact named.of_quiet rfl named.requests sendPacket_quiet
  | handleFindnodeRequest reqId sender =>
    unfold runTask handleFindnodeRequest
    dsimp only
    split
    · exact named.quiet fun _ _ => rfl
    · split
      · exact named.quiet fun _ _ => rfl
      · rw [sendPacket_client]
        exact named.quiet sendPacket_quiet

theorem crawl_named (named : Named left client log) (leaves : left peer.key → draws.sent = true) :
    Named left (crawl crypto config draws client peer).client (log ++ (crawl crypto config draws client peer).events) := by
  have sent : Named left (sendFindnode crypto config draws client peer).client
      (log ++ (sendFindnode crypto config draws client peer).events) := sendFindnode_named named leaves
  unfold crawl
  generalize sendFindnode crypto config draws client peer = result at sent ⊢
  dsimp only
  split
  · exact sent.more fun _ _ => rfl
  · exact sent.more fun _ _ => rfl

theorem handlePlaintext_nodes
    (accepted : (handlePlaintext crypto text client session sender plaintext).verdict = .nodes reqId) :
    session.lastReqId = [] ∨ reqId = session.lastReqId := by
  unfold handlePlaintext at accepted
  split at accepted
  · cases accepted
  dsimp only at accepted
  split at accepted
  · unfold handleNodes at accepted
    split at accepted
    · cases accepted
    · cases accepted
    · split_ifs at accepted with expected
      cases accepted
      by_cases empty : session.lastReqId = []
      · exact .inl empty
      · exact .inr (by_contra fun other => expected ⟨empty,other⟩)
  · split at accepted
    · unfold handleFindnode at accepted
      split at accepted <;> cases accepted
    · cases accepted

theorem handleMessage_nodes (accepted : (handleMessage crypto text client packet sender).verdict = .nodes reqId) :
    ∃ session,client.sessions sender.key = some session ∧ (session.lastReqId = [] ∨ reqId = session.lastReqId) := by
  unfold handleMessage Handled.after at accepted
  dsimp only at accepted
  split at accepted
  · cases accepted
  split at accepted
  · cases accepted
  rename_i session found
  split_ifs at accepted
  split at accepted
  · cases accepted
  · exact ⟨session,found,handlePlaintext_nodes accepted⟩

theorem handleHandshake_nodes : (handleHandshake crypto text config client packet sender).verdict ≠ .nodes reqId := by
  unfold handleHandshake Handled.after
  split
  · nofun
  · nofun
  · split
    · nofun
    · rw [(acceptHandshake_session (Function.update_self ..)).1]
      nofun

theorem handlePacket_nodes (accepted : (handlePacket crypto text config client data sender).verdict = .nodes reqId) :
    ∃ session,client.sessions sender.key = some session ∧ (session.lastReqId = [] ∨ reqId = session.lastReqId) := by
  unfold handlePacket at accepted
  split at accepted
  · cases accepted
  split at accepted
  · unfold handleWhoareyou at accepted
    split_ifs at accepted
    split at accepted
    · cases accepted
    · split at accepted <;> cases accepted
  · split at accepted
    · exact handleMessage_nodes accepted
    · split at accepted
      · exact absurd accepted handleHandshake_nodes
      · cases accepted

end named

structure System where
  client : Discv5Client
  tasks : List Task
  log : List Event

def System.start : System := ⟨.new,[],[]⟩

inductive Action where
  | receive (data : ByteView) (sender : Endpoint)
  | run (task : Task) (draws : Draws)
  | crawl (peer : ValidatedPeer) (draws : Draws)

def spawned (events : List Event) : List Task :=
  events.filterMap fun event => match event with
    | .spawn task => some task
    | _ => none

def System.did (s : System) (client : Discv5Client) (events : List Event) : System :=
  ⟨client,s.tasks ++ spawned events,s.log ++ events⟩

section machine
variable (crypto : Crypto) (text : AddressText) (config : Discv5Config)

def System.apply (s : System) : Action → System
  | .receive data sender =>
    let handled := handlePacket crypto text config s.client data sender
    s.did handled.client handled.events
  | .run task draws =>
    let sent := runTask crypto config draws s.client task
    { s with tasks := s.tasks.erase task }.did sent.client sent.events
  | .crawl peer draws =>
    let sent := crawl crypto config draws s.client peer
    s.did sent.client sent.events

def machine : Machine System Action where
  Allowed s action := match action with
    | .run task _ => task ∈ s.tasks
    | _ => True
  apply := System.apply crypto text config

end machine

def Action.Leaves (key : String) : Action → Prop
  | .run (.sendFindnode peer) draws => peer.key = key → draws.sent = true
  | .crawl peer draws => peer.key = key → draws.sent = true
  | _ => True

section runs
variable {crypto : Crypto} {text : AddressText} {config : Discv5Config} {s : System} {actions : List Action} {left : String → Prop}

theorem start_named : Named left System.start.client System.start.log := ⟨nofun,nofun⟩

theorem apply_named (named : Named left s.client s.log) (action : Action) (leaves : ∀ key,left key → action.Leaves key) :
    Named left (s.apply crypto text config action).client (s.apply crypto text config action).log := by
  cases action with
  | receive data sender => exact named.handled
  | run task draws =>
    refine runTask_named named task ?_
    rintro peer rfl sure
    exact leaves peer.key sure rfl
  | crawl peer draws => exact crawl_named named fun sure => leaves peer.key sure rfl

theorem run_named (path : (machine crypto text config).Sequence .start actions s) :
    Named (fun key => ∀ action ∈ actions,action.Leaves key) s.client s.log := by
  refine path.history (fun past s => Named (fun key => ∀ action ∈ past,action.Leaves key) s.client s.log) start_named ?_
  intro past s action _ named
  refine apply_named (named.mono ?_) action ?_
  · intro key all earlier member
    exact all earlier (List.mem_append_left _ member)
  · intro key all
    exact all action (List.mem_append_right _ List.mem_cons_self)

-- An accepted answer is one to a question of this client exactly if the id the
-- session waits for is; if everything the client asked at that endpoint left, on
-- exactly the sessions on which it has asked anything.
theorem accepted_nodes_solicited_iff (path : (machine crypto text config).Sequence .start actions s) (data : ByteView)
    (sender : Endpoint) (reqId : List UInt8)
    (accepted : (handlePacket crypto text config s.client data sender).verdict = .nodes reqId) :
    ∃ session,s.client.sessions sender.key = some session ∧
      (reqId ∈ askedOn s.log sender.key ↔ session.lastReqId ∈ askedOn s.log sender.key) ∧
      ((∀ action ∈ actions,action.Leaves sender.key) → (reqId ∈ askedOn s.log sender.key ↔ askedOn s.log sender.key ≠ [])) := by
  have named := run_named path
  obtain ⟨session,found,expected⟩ := handlePacket_nodes accepted
  have waits : reqId ∈ askedOn s.log sender.key ↔ session.lastReqId ∈ askedOn s.log sender.key := by
    rcases expected with none | same
    · have nothing : askedOn s.log sender.key = [] := by
        by_contra asked
        exact (named.sessions _ _ found asked).1 none
      rw [nothing]
      exact ⟨nofun,nofun⟩
    · rw [same]
  refine ⟨session,found,waits,?_⟩
  intro leaves
  rw [waits]
  constructor
  · exact List.ne_nil_of_mem
  · intro asked
    exact (named.sessions _ _ found asked).2 leaves

end runs

def askingActions : List Action :=
  [.crawl (nodePeer 2) (goodDraws 1),.receive whoareyouData (nodeEnd 2),.run (.sendFindnode (nodePeer 2)) (goodDraws 3)]

def asking : System := askingActions.foldl (System.apply standIn dottedText (nodeConfig 1)) .start

def nodesData : ByteView :=
  receiveBuffer (handleFindnodeRequest standIn (nodeConfig 2) (goodDraws 4) acceptedNode.client (requestId (nodePeer 2))
    (nodeEnd 1)).packet

theorem asking_reached : (machine standIn dottedText (nodeConfig 1)).Sequence .start askingActions asking := by
  refine .cons trivial (.cons trivial (.cons ?_ .nil))
  show Task.sendFindnode (nodePeer 2) ∈ System.tasks _
  decide +kernel

theorem asked_nodes_accepted : (handlePacket standIn dottedText (nodeConfig 1) asking.client nodesData (nodeEnd 2)).verdict =
    .nodes (requestId (nodePeer 2)) := by
  decide +kernel

theorem asked_nodes_solicited : ∃ session,asking.client.sessions (nodeEnd 2).key = some session ∧
    (requestId (nodePeer 2) ∈ askedOn asking.log (nodeEnd 2).key ↔ session.lastReqId ∈ askedOn asking.log (nodeEnd 2).key) ∧
    ((∀ action ∈ askingActions,action.Leaves (nodeEnd 2).key) →
      (requestId (nodePeer 2) ∈ askedOn asking.log (nodeEnd 2).key ↔ askedOn asking.log (nodeEnd 2).key ≠ [])) :=
  accepted_nodes_solicited_iff asking_reached nodesData (nodeEnd 2) (requestId (nodePeer 2)) asked_nodes_accepted

def askedActions : List Action :=
  [.receive requestData (nodeEnd 1),
    .run (.sendWhoareyou (nodeEnd 1) (localNodeAddr standIn (nodeConfig 1)) (.copy 12 [1])) (goodDraws 2),
    .receive answerData (nodeEnd 1)]

def asked : System := askedActions.foldl (System.apply standIn dottedText (nodeConfig 2)) .start

def unaskedNodes : ByteView :=
  receiveBuffer (handleFindnodeRequest standIn (nodeConfig 1) (goodDraws 4) answerSent.client (requestId (nodePeer 2))
    (nodeEnd 2)).packet

theorem unasked_nodes_accepted : (machine standIn dottedText (nodeConfig 2)).Sequence .start askedActions asked ∧
    (handlePacket standIn dottedText (nodeConfig 2) asked.client unaskedNodes (nodeEnd 1)).verdict = .nodes (requestId (nodePeer 2)) ∧
    requestId (nodePeer 2) ∉ askedOn asked.log (nodeEnd 1).key := by
  refine ⟨?_,by decide +kernel,by decide +kernel⟩
  refine .cons trivial (.cons ?_ (.cons trivial .nil))
  show Task.sendWhoareyou .. ∈ System.tasks _
  decide +kernel

end EvmRelay.Discv5
