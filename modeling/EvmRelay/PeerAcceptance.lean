import EvmRelay.DialCaps
import EvmRelay.EthPeerQueue

namespace EvmRelay.Eth
open Discv4

namespace Feeding
variable [DecidableEq ι] {s : Feeding ι}

def Scheduled (s next : Dialing ι) (i : ι) (peer : ValidatedPeer) : Prop :=
  (next.scheduler i).queue = (s.scheduler i).queue ++ [peer] ∨
  ∃ started,next.dials = s.dials ++ [⟨i,peer,started,false,false,false⟩]

def Refused (s : Dialing ι) (i : ι) (peer : ValidatedPeer) (clock : Readings) : Prop :=
  (s.scheduler i).stopping = true ∨ (s.scheduler i).filterFn.any (fun filterFn => !filterFn peer.peer) = true ∨
  ((s.scheduler i).dialHistory.expire clock.expired).contains clock.asked peer.peer.nodeId = true

omit [DecidableEq ι] in
theorem not_scheduled {s next : Dialing ι} (queue : (next.scheduler i).queue = (s.scheduler i).queue) (dials : next.dials = s.dials) :
    ¬ Scheduled s next i peer := by
  rintro (waits | ⟨started,spawned⟩)
  · exact absurd (queue.symm.trans waits) (by simp)
  · exact absurd (dials.symm.trans spawned) (by simp)

theorem enqueue_scheduled_iff {s : Dialing ι} :
    Scheduled s (s.enqueue i peer clock.expired clock.asked clock.added) i peer ↔ ¬ Refused s i peer clock := by
  unfold Refused
  simp only [Dialing.enqueue]
  split
  · rename_i stopping
    exact iff_of_false (not_scheduled rfl rfl) (by simp [stopping])
  rename_i running
  split
  · rename_i filtered
    exact iff_of_false (not_scheduled rfl rfl) (by simp [filtered])
  rename_i passed
  split
  · rename_i recent
    refine iff_of_false (not_scheduled ?_ rfl) (by simp [recent])
    rw [Dialing.put_scheduler,if_pos rfl]
  rename_i old
  refine iff_of_true ?_ (by simp [running,passed,old])
  split
  · exact .inr ⟨clock.added,rfl⟩
  · refine .inl ?_
    rw [Dialing.put_scheduler,if_pos rfl]

inductive Offer where
  | discovered (peer : DiscoveredPeer)
  | validated (peer : Discv5.ValidatedPeer)
  | disconnected (feedback : EthPeerDisconnectFeedback)

def Offer.candidate : Offer → ValidatedPeer
  | .discovered peer => discoveredCandidate peer
  | .validated peer => validatedCandidate peer
  | .disconnected feedback => feedback.peer

def Offer.call (s : Feeding ι) (clock : Readings) : Offer → Bool × Feeding ι
  | .discovered peer => s.enqueueDiscoveredPeer peer clock
  | .validated peer => s.enqueueValidatedDiscoveryPeer peer clock
  | .disconnected feedback => s.reportPeerDisconnected feedback clock

-- The offer comes as far as the queue's capacity: the peer does not back off, is
-- new, or may be requeued once more.
def Considered (s : Feeding ι) (clock : Readings) (offer : Offer) : Prop :=
  s.backingOff offer.candidate clock.now = false ∧
  match offer with
  | .disconnected feedback => feedback.reason ≠ .kTooManyPeers ∧ isRequeueableDisconnect feedback = true ∧
      s.queue.disconnectCounts (nodeKey feedback.peer) < s.queue.config.maxDisconnectRequeues
  | _ => s.queue.seenNodeIds (nodeKey offer.candidate) = false

inductive Treated (s : Feeding ι) (i : ι) (clock : Readings) (offer : Offer) (result : Bool × Feeding ι) : Prop where
  | unconsidered : ¬ Considered s clock offer → result.1 = false → result.2.dialing = s.dialing → Treated s i clock offer result
  | full : Considered s clock offer → s.Full i → result.1 = false → result.2.dialing = s.dialing →
      result.2.queue.seenNodeIds = s.queue.seenNodeIds → Treated s i clock offer result
  | enqueued : Considered s clock offer → ¬ s.Full i → result.1 = true →
      result.2.dialing = s.dialing.enqueue i offer.candidate clock.expired clock.asked clock.added →
      result.2.queue.seenNodeIds (nodeKey offer.candidate) = true → Treated s i clock offer result

omit [DecidableEq ι] in
theorem seen_unchanged (peer : ValidatedPeer) :
    ((s.forgetBackoff peer).setSeen peer (s.queue.seenNodeIds (nodeKey peer))).queue.seenNodeIds = s.queue.seenNodeIds :=
  Function.update_eq_self _ _

theorem countDiscovered_treated (treated : Treated s i clock offer result) :
    Treated s i clock offer (countDiscovered result) := by
  obtain ⟨accepted,next⟩ := result
  cases accepted with
  | false => exact treated
  | true =>
    cases treated with
    | unconsidered _ refused => exact absurd refused nofun
    | full _ _ refused => exact absurd refused nofun
    | enqueued considered room _ dialing seen => exact .enqueued considered room rfl dialing seen

theorem new_treated (attached : s.queue.scheduler = some i)
    (fresh : Considered s clock offer ↔ s.backingOff offer.candidate clock.now = false ∧
      s.queue.seenNodeIds (nodeKey offer.candidate) = false) :
    Treated s i clock offer (s.enqueueCandidate offer.candidate false clock) := by
  have offered := enqueueCandidate_offered s offer.candidate false clock
  generalize s.enqueueCandidate offer.candidate false clock = result at offered
  cases offered with
  | backedOff stats backing =>
    refine .unconsidered (fun considered => ?_) rfl rfl
    rw [(fresh.mp considered).1] at backing
    exact absurd backing Bool.false_ne_true
  | duplicate stats free seen =>
    refine .unconsidered (fun considered => ?_) rfl rfl
    rw [(fresh.mp considered).2] at seen
    exact absurd seen Bool.false_ne_true
  | unattached _ _ none => exact absurd (attached.symm.trans none) nofun
  | full stats free may own full =>
    cases attached.symm.trans own
    exact .full (fresh.mpr ⟨free,may.resolve_right nofun⟩) full rfl rfl (seen_unchanged ..)
  | enqueued free may own room =>
    cases attached.symm.trans own
    exact .enqueued (fresh.mpr ⟨free,may.resolve_right nofun⟩) room rfl rfl (Function.update_self ..)

theorem call_treated (attached : s.queue.scheduler = some i) (clock : Readings) (offer : Offer) :
    Treated s i clock offer (offer.call s clock) := by
  cases offer with
  | disconnected feedback =>
    have reported := reportPeerDisconnected_reported s feedback clock
    unfold Offer.call
    dsimp only
    generalize s.reportPeerDisconnected feedback clock = result at reported
    cases reported with
    | suppressed stats tooMany => exact .unconsidered (fun considered => considered.2.1 tooMany) rfl rfl
    | dropped stats reason final =>
      refine .unconsidered (fun considered => ?_) rfl rfl
      rcases final with final | flaky
      · exact absurd (considered.2.2.1.symm.trans final) nofun
      · exact absurd considered.2.2.2 (BitVec.not_lt.mpr flaky)
    | retried counted stats reason again rare offered =>
      cases offered with
      | backedOff _ backing =>
        refine .unconsidered (fun considered => ?_) rfl rfl
        exact absurd (backing.symm.trans considered.1) nofun
      | duplicate _ _ _ unknown => exact absurd unknown nofun
      | unattached _ _ none => exact absurd (attached.symm.trans none) nofun
      | full _ free _ own full =>
        cases attached.symm.trans own
        exact .full ⟨free,reason,again,rare⟩ full rfl rfl (seen_unchanged ..)
      | enqueued free _ own room =>
        cases attached.symm.trans own
        exact .enqueued ⟨free,reason,again,rare⟩ room rfl rfl (Function.update_self ..)
  | _ => exact countDiscovered_treated (new_treated attached Iff.rfl)

section memory

omit [DecidableEq ι] in
theorem setSeen_kept (same : nodeKey peer = key → remembered = true)
    (seen : s.queue.seenNodeIds key = true) : (s.setSeen peer remembered).queue.seenNodeIds key = true := by
  unfold setSeen
  dsimp only
  rw [Function.update_apply]
  split_ifs with own
  · exact same own.symm
  · exact seen

theorem Offered.seen (offered : Offered s peer allowKnownPeer clock result)
    (seen : s.queue.seenNodeIds key = true) : result.2.queue.seenNodeIds key = true := by
  cases offered with
  | backedOff => exact seen
  | full => exact setSeen_kept (fun own => own ▸ seen) seen
  | _ => exact setSeen_kept (fun _ => rfl) seen

theorem Offered.known (offered : Offered s peer false clock result)
    (seen : s.queue.seenNodeIds (nodeKey peer) = true) : result.1 = false := by
  cases offered with
  | backedOff => rfl
  | duplicate => rfl
  | unattached _ may => exact absurd (seen.symm.trans (may.resolve_right nofun)) nofun
  | full => rfl
  | enqueued _ may => exact absurd (seen.symm.trans (may.resolve_right nofun)) nofun

omit [DecidableEq ι] in
theorem countDiscovered_refused (refused : result.1 = false) : (countDiscovered result).1 = false := by
  obtain ⟨accepted,next⟩ := result
  cases refused
  rfl

theorem Reported.seen (reported : Reported s feedback clock result)
    (seen : s.queue.seenNodeIds key = true) : result.2.queue.seenNodeIds key = true := by
  cases reported with
  | suppressed => exact seen
  | dropped => exact seen
  | retried _ _ _ _ _ offered => exact offered.seen seen

theorem apply_seen (action : Action ι) (seen : s.queue.seenNodeIds key = true) : (s.apply action).queue.seenNodeIds key = true := by
  have touches := apply_touches s action
  generalize s.apply action = next at touches
  cases touches with
  | idle queue => rw [queue,seen]
  | offered stats _ offered => exact offered.seen seen
  | reported base _ queue => exact (reportPeerDisconnected_reported ..).seen (queue ▸ seen)

theorem run_seen (path : (machine ι).Sequence s actions next)
    (seen : s.queue.seenNodeIds key = true) : next.queue.seenNodeIds key = true :=
  path.keeps (fun s => s.queue.seenNodeIds key = true) seen fun _ action _ => apply_seen action

end memory

def TurnedAway (s : Feeding ι) (i : ι) (clock : Readings) (offer : Offer) : Prop :=
  Considered s clock offer ∧ (s.Full i ∨ Refused s.dialing i offer.candidate clock)

-- An accepted peer is scheduled, and one turned away not remembered, exactly if a
-- full queue does not know the peer and the scheduler does not drop what it is given.
theorem acceptance_schedules_iff (s : Feeding ι) (i : ι) (clock : Readings) (offer : Offer) (attached : s.queue.scheduler = some i) :
    ((((offer.call s clock).1 = true → Scheduled s.dialing (offer.call s clock).2.dialing i offer.candidate) ∧
        (TurnedAway s i clock offer → (offer.call s clock).2.queue.seenNodeIds (nodeKey offer.candidate) = false)) ↔
      (Considered s clock offer → (s.Full i ∧ s.queue.seenNodeIds (nodeKey offer.candidate) = false) ∨
        (¬ s.Full i ∧ ¬ Refused s.dialing i offer.candidate clock))) ∧
    ((offer.call s clock).2.queue.seenNodeIds (nodeKey offer.candidate) = true → ∀ actions later clock' (again : Offer),
      (machine ι).Sequence (offer.call s clock).2 actions later → again.candidate.peer.nodeId = offer.candidate.peer.nodeId →
      (∀ feedback,again ≠ .disconnected feedback) → (again.call later clock').1 = false) := by
  have treated := call_treated attached clock offer
  generalize offer.call s clock = result at treated
  refine ⟨?_,fun seen actions later clock' again path same new => ?_⟩
  · cases treated with
    | unconsidered ignored refusal =>
      refine iff_of_true ⟨fun accepted => absurd (accepted.symm.trans refusal) nofun,fun away => absurd away.1 ignored⟩ ?_
      exact fun considered => absurd considered ignored
    | full considered full refusal _ seen =>
      have away : TurnedAway s i clock offer := ⟨considered,.inl full⟩
      simp [refusal,away,considered,full,seen]
    | enqueued considered room accepted dialing seen =>
      have away : TurnedAway s i clock offer ↔ Refused s.dialing i offer.candidate clock := by
        simp [TurnedAway,considered,room]
      rw [accepted,dialing,enqueue_scheduled_iff,away,seen]
      simp [considered,room]
  · have known : later.queue.seenNodeIds (nodeKey again.candidate) = true := by
      unfold nodeKey at seen ⊢
      rw [same]
      exact run_seen path seen
    cases again with
    | discovered peer => exact countDiscovered_refused ((enqueueCandidate_offered ..).known known)
    | validated peer => exact countDiscovered_refused ((enqueueCandidate_offered ..).known known)
    | disconnected feedback => exact absurd rfl (new feedback)

def namedPeer (node : Nat) (forkId : Option Enr.ForkId) : DiscoveredPeer := ⟨.ofNat 64 node,[],0,30303,forkId⟩

def filtered : Feeding Unit :=
  .new (.new 1 1 fun _ => .new false (some (makeForkIdFilter (.ofNat 4 1)))) () ⟨1024,3,1800000000000⟩

def noon : Readings := ⟨0,0,0,0⟩

theorem matching_peer_scheduled :
    Scheduled filtered.dialing (Offer.call filtered noon (.discovered (namedPeer 1 (some ⟨.ofNat 4 1,0⟩)))).2.dialing ()
      (discoveredCandidate (namedPeer 1 (some ⟨.ofNat 4 1,0⟩))) := by
  have taken : ¬ filtered.Full () ∧
      ¬ Refused filtered.dialing () (discoveredCandidate (namedPeer 1 (some ⟨.ofNat 4 1,0⟩))) noon := by
    unfold Refused
    decide +kernel
  exact ((acceptance_schedules_iff filtered () noon (.discovered (namedPeer 1 (some ⟨.ofNat 4 1,0⟩))) rfl).1.mpr fun _ =>
    .inr taken).1 (by decide +kernel)

def crowded : Feeding Unit :=
  (Feeding.new (.new 1 1 fun _ => .new false none) () ⟨0,3,1800000000000⟩ |>.enqueueDiscoveredPeer (namedPeer 1 none) noon).2

def timedOut : EthPeerDisconnectFeedback := ⟨discoveredCandidate (namedPeer 1 none),.kTimeout,true⟩

-- A peer that the filter drops, and one that is turned away for the capacity when
-- it comes back from a connection.
theorem filtered_peer_remembered : (filtered.enqueueDiscoveredPeer (namedPeer 1 none) noon).1 = true ∧
    ((filtered.enqueueDiscoveredPeer (namedPeer 1 none) noon).2.dialing.scheduler ()).queue = [] ∧
    (filtered.enqueueDiscoveredPeer (namedPeer 1 none) noon).2.dialing.dials.length = 0 ∧
    ((filtered.enqueueDiscoveredPeer (namedPeer 1 none) noon).2.enqueueDiscoveredPeer (namedPeer 1 (some ⟨.ofNat 4 1,0⟩)) noon).1 = false ∧
    (filtered.enqueueDiscoveredPeer (namedPeer 1 (some ⟨.ofNat 4 1,0⟩)) noon).2.dialing.dials.length = 1 ∧
    crowded.Full () ∧ (crowded.reportPeerDisconnected timedOut noon).1 = false ∧
    (crowded.reportPeerDisconnected timedOut noon).2.queue.seenNodeIds (nodeKey timedOut.peer) = true ∧
    ((crowded.reportPeerDisconnected timedOut noon).2.enqueueDiscoveredPeer (namedPeer 1 none) noon).1 = false := by
  decide +kernel

end Feeding
end EvmRelay.Eth
