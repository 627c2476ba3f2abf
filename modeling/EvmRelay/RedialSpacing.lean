import EvmRelay.DialQueues

namespace EvmRelay.Discv4.Dialing

variable [DecidableEq ι] {s next : Dialing ι}

def starts (s : Dialing ι) : List (ι × NodeId × TimePoint) :=
  s.dials.map fun dial => (dial.owner,dial.vp.peer.nodeId,dial.started)

omit [DecidableEq ι] in
theorem starts_set (found : s.dials[d]? = some dial) (dials : next.dials = s.dials.set d changed)
    (owner : changed.owner = dial.owner) (vp : changed.vp = dial.vp) (started : changed.started = dial.started) :
    next.starts = s.starts := by
  unfold starts
  rw [dials,List.map_set,owner,vp,started]
  refine List.ext_getElem? fun n => ?_
  rw [List.getElem?_set]
  split
  · rename_i here
    subst here
    split_ifs with outside
    · rw [List.getElem?_map,found]
      rfl
    · rw [List.getElem?_eq_none (Nat.le_of_not_lt outside)]
  · rfl

def history (s : Dialing ι) (i : ι) : DialHistory := (s.scheduler i).dialHistory

-- A dial is in the history of its scheduler until its time has passed, and no
-- node was dialled again before.
structure Spaced (expiry : ι → Int) (s : Dialing ι) (time : TimePoint) : Prop where
  constant : ∀ i,(s.history i).expiry = expiry i
  noted : ∀ i node started,(i,node,started) ∈ s.starts → started + expiry i ≤ time ∨
    ∃ deadline,(s.history i).entries node = some deadline ∧ started + expiry i ≤ deadline
  apart : s.starts.Pairwise fun earlier later => earlier.1 = later.1 → earlier.2.1 = later.2.1 →
    earlier.2.2 + expiry earlier.1 ≤ later.2.2

omit [DecidableEq ι] in
theorem Spaced.forget (held : Spaced expiry s time) (starts : next.starts = s.starts)
    (histories : ∀ i,next.history i = s.history i ∨ next.history i = (s.history i).expire asked)
    (onward : time ≤ time') (read : asked ≤ time') : Spaced expiry next time' := by
  refine ⟨fun i => ?_,fun i node started member => ?_,starts ▸ held.apart⟩
  · rcases histories i with same | pruned
    · rw [same,held.constant]
    · rw [pruned]
      exact held.constant i
  · rw [starts] at member
    rcases held.noted i node started member with past | ⟨deadline,entry,covered⟩
    · exact .inl (past.trans onward)
    rcases histories i with same | pruned
    · exact .inr ⟨deadline,same ▸ entry,covered⟩
    · by_cases due : deadline ≤ asked
      · exact .inl ((covered.trans due).trans read)
      · refine .inr ⟨deadline,?_,covered⟩
        rw [pruned]
        simp [DialHistory.expire,entry,due]

theorem startDial_starts : (s.startDial i vp added).starts = s.starts ++ [(i,vp.peer.nodeId,added)] := by
  simp [starts,startDial,spawnDial,put]

theorem startDial_history :
    (s.startDial i vp added).history j = if j = i then (s.history i).add added vp.peer.nodeId else s.history j := by
  unfold history
  simp only [startDial,spawnDial,put_scheduler]
  split <;> rfl

omit [DecidableEq ι] in
theorem Spaced.past (held : Spaced expiry s time)
    (free : (s.history i).contains asked node = false) (onward : time ≤ asked) (member : (i,node,started) ∈ s.starts) :
    started + expiry i ≤ asked := by
  rcases held.noted _ _ _ member with past | ⟨deadline,entry,covered⟩
  · exact past.trans onward
  · have due : deadline ≤ asked := by simpa [DialHistory.contains,entry] using free
    exact covered.trans due

theorem Spaced.startDial (held : Spaced expiry s time)
    (free : (s.history i).contains asked vp.peer.nodeId = false) (first : time ≤ asked) (second : asked ≤ added) (third : added ≤ time') :
    Spaced expiry (s.startDial i vp added) time' := by
  have onward : asked ≤ time' := second.trans third
  refine ⟨fun j => ?_,fun j node started member => ?_,?_⟩
  · rw [startDial_history]
    split_ifs with own
    · subst own
      exact held.constant j
    · exact held.constant j
  · rw [startDial_starts] at member
    rw [startDial_history]
    rcases List.mem_append.mp member with old | new
    · by_cases replaced : j = i ∧ node = vp.peer.nodeId
      · -- The entry of this dial takes the place of the one that has passed.
        obtain ⟨rfl,rfl⟩ := replaced
        exact .inl ((held.past free first old).trans onward)
      · refine (held.noted _ _ _ old).imp (fun past => (past.trans first).trans onward) fun ⟨deadline,entry,covered⟩ => ?_
        refine ⟨deadline,?_,covered⟩
        split_ifs with own
        · subst own
          simpa [DialHistory.add,show node ≠ vp.peer.nodeId from fun same => replaced ⟨rfl,same⟩] using entry
        · exact entry
    · cases List.mem_singleton.mp new
      rw [if_pos rfl]
      refine .inr ⟨added + (s.history i).expiry,by simp [DialHistory.add],?_⟩
      rw [held.constant]
  · rw [startDial_starts]
    refine List.pairwise_append.mpr ⟨held.apart,List.pairwise_singleton _ _,fun earlier old later new owner node => ?_⟩
    cases List.mem_singleton.mp new
    obtain ⟨j,_,started⟩ := earlier
    cases owner
    cases node
    exact (held.past free first old).trans second

omit [DecidableEq ι] in
theorem Spaced.same (held : Spaced expiry s time) (starts : next.starts = s.starts) (histories : ∀ i,next.history i = s.history i)
    (onward : time ≤ time') : Spaced expiry next time' :=
  held.forget starts (fun i => .inl (histories i)) onward le_rfl

theorem put_history (same : own.dialHistory = s.history i) (j : ι) : (s.put i own).history j = s.history j :=
  put_same DialScheduler.dialHistory same j

theorem pruned_history (s : Dialing ι) (i : ι) (expired : TimePoint) (j : ι) :
    (s.pruned i expired).history j = s.history j ∨ (s.pruned i expired).history j = (s.history j).expire expired := by
  unfold history pruned
  rw [put_scheduler]
  split_ifs with own
  · exact .inr (by rw [own])
  · exact .inl rfl

theorem Spaced.enqueue (held : Spaced expiry s time) (i : ι) (vp : ValidatedPeer) (first : time ≤ expired)
    (second : expired ≤ asked) (third : asked ≤ added) (fourth : added ≤ time') :
    Spaced expiry (s.enqueue i vp expired asked added) time' := by
  have onward : time ≤ time' := ((first.trans second).trans third).trans fourth
  have forgot : ∀ {now},expired ≤ now → Spaced expiry (s.pruned i expired) now :=
    fun read => held.forget rfl (pruned_history s i expired) (first.trans read) read
  simp only [Dialing.enqueue]
  split
  · exact held.same rfl (fun _ => rfl) onward
  split
  · exact held.same rfl (fun _ => rfl) onward
  split
  · exact forgot ((second.trans third).trans fourth)
  rename_i free
  split
  · refine (forgot le_rfl).startDial ?_ second third fourth
    unfold history pruned
    rw [put_scheduler,if_pos rfl]
    simpa using free
  · refine (forgot ((second.trans third).trans fourth)).same rfl (fun j => ?_) le_rfl
    refine put_history ?_ j
    unfold history
    rw [put_scheduler,if_pos rfl]

theorem Spaced.drain (held : Spaced expiry s time) (first : time ≤ asked) (second : asked ≤ added) (third : added ≤ time') :
    Spaced expiry (s.drain asked added) time' := by
  have onward : time ≤ time' := (first.trans second).trans third
  simp only [Dialing.drain]
  split
  · exact held.same rfl (fun _ => rfl) onward
  rename_i i outer _
  split
  · exact held.same rfl (fun _ => rfl) onward
  rename_i vp queue _
  split
  · have popped : ∀ j,(s.put i { s.scheduler i with queue := queue }).history j = s.history j := put_history rfl
    have waits : ∀ {now},time ≤ now → Spaced expiry (s.put i { s.scheduler i with queue := queue }) now :=
      fun later => held.same (by rfl) popped later
    split_ifs with free
    · exact waits onward
    · refine (waits le_rfl).startDial ?_ first second third
      rw [popped]
      exact Bool.eq_false_of_not_eq_true free
  · exact held.same rfl (fun _ => rfl) onward

theorem Spaced.release (held : Spaced expiry s time) (i : ι) (first : time ≤ expired) (second : expired ≤ time') :
    Spaced expiry (s.release i expired) time' := by
  refine held.forget (by unfold starts; rw [release_dials]) (fun j => ?_) (first.trans second) second
  unfold history Dialing.release
  dsimp only
  by_cases own : j = i
  · subst own
    split <;> simp
  · split <;> simp [own]

theorem report_history (s : Dialing ι) (d : Nat) (dial : Dial ι) (reason : DisconnectReason) (i : ι) :
    (s.report d dial reason).history i = s.history i := by
  unfold history
  rw [report_same DialScheduler.dialHistory fun _ _ => rfl]

-- The readings of the clock an action makes, in order. A reading that is not made
-- after all may be taken to repeat the one before.
def Action.readings : Action ι → List TimePoint
  | .enqueue _ _ expired asked added => [expired,asked,added]
  | .done _ _ expired => [expired]
  | .drain asked added => [asked,added]
  | _ => []

theorem apply_spaced (allowed : s.Allowed action) (held : Spaced expiry s time)
    (ordered : (time :: (action.readings ++ [time'])).Pairwise (· ≤ ·)) : Spaced expiry (s.apply action) time' := by
  have onward : time ≤ time' := (List.pairwise_cons.mp ordered).1 time' (by simp)
  have chain := ordered.isChain
  cases action with
  | enqueue i vp expired asked added =>
    obtain ⟨first,second,third,fourth⟩ : time ≤ expired ∧ expired ≤ asked ∧ asked ≤ added ∧ added ≤ time' := by
      simpa [Action.readings] using chain
    exact held.enqueue i vp first second third fourth
  | stop i => exact held.same (by rfl) (put_history (by rfl)) onward
  | done d reason expired =>
    obtain ⟨first,second⟩ : time ≤ expired ∧ expired ≤ time' := by simpa [Action.readings] using chain
    obtain ⟨dial,found,_⟩ := allowed
    show Spaced expiry (s.onDone d reason expired) time'
    unfold onDone
    rw [found]
    have reported := held.same (starts_set found (report_dials ..) rfl rfl rfl) (report_history s d dial reason) le_rfl
    exact reported.release dial.owner first second
  | connected d =>
    obtain ⟨dial,found⟩ := allowed
    show Spaced expiry (s.onConnected d) time'
    unfold onConnected
    rw [found]
    refine held.same ?_ (put_history (by rfl)) onward
    exact starts_set found rfl rfl rfl rfl
  | disconnect d reason =>
    obtain ⟨dial,found,_⟩ := allowed
    show Spaced expiry (s.onDisconnect d reason) time'
    unfold onDisconnect
    rw [found]
    dsimp only
    split
    · refine held.same ?_ (fun _ => rfl) onward
      exact starts_set found rfl rfl rfl rfl
    · exact held.same rfl (fun _ => rfl) onward
  | drain asked added =>
    obtain ⟨first,second,third⟩ : time ≤ asked ∧ asked ≤ added ∧ added ≤ time' := by simpa [Action.readings] using chain
    exact held.drain first second third

-- Whatever the histories hold at the start, and however often a node is queued.
theorem redials_spaced (maxTotal maxPerChain : Int) (scheduler : ι → DialScheduler) (actions : List (Action ι)) (s : Dialing ι)
    (path : (machine ι).Sequence (new maxTotal maxPerChain scheduler) actions s)
    (clock : (actions.flatMap Action.readings).Pairwise (· ≤ ·)) :
    s.dials.Pairwise fun earlier later => earlier.owner = later.owner → earlier.vp.peer.nodeId = later.vp.peer.nodeId →
      earlier.started + (scheduler earlier.owner).dialHistory.expiry ≤ later.started := by
  have start : ∀ time,Spaced (fun i => (scheduler i).dialHistory.expiry) (new maxTotal maxPerChain scheduler) time :=
    fun _ => ⟨fun _ => rfl,nofun,.nil⟩
  obtain ⟨time,held⟩ := path.clocked Action.readings (Spaced fun i => (scheduler i).dialHistory.expiry) start
    (fun _ _ _ _ allowed held ordered => apply_spaced allowed held ordered) clock
  exact List.pairwise_map.mp held.apart

def requeued : List (Action Unit) :=
  [.enqueue () anyPeer 0 0 0,.enqueue () anyPeer 35000000000 35000000000 35000000000,
    .enqueue () anyPeer 35000000000 35000000000 35000000000,.done 0 .kTcpError 35000000001,.drain 35000000001 35000000001,
    .done 1 .kTcpError 35000000002,.drain 35000000002 35000000002]

def oneSlot : Dialing Unit := new 1 1 fun _ => .new false none

theorem requeued_spaced : (requeued.foldl apply oneSlot).dials.map Dial.started = [0,35000000001] ∧
    (requeued.foldl apply oneSlot).dials.Pairwise fun earlier later => earlier.owner = later.owner →
      earlier.vp.peer.nodeId = later.vp.peer.nodeId → earlier.started + DialHistory.kDefaultExpiry ≤ later.started :=
  ⟨by decide +kernel,redials_spaced 1 1 (fun _ => .new false none) requeued _ (Machine.sequence_of_check (by decide +kernel)) (by decide)⟩

end EvmRelay.Discv4.Dialing
