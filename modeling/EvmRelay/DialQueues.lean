import EvmRelay.DialCaps

namespace EvmRelay.Discv4.Dialing

variable [DecidableEq ι] {s next : Dialing ι}

-- No queued peer waits while both caps leave room for it.
def Conserves (s : Dialing ι) (i : ι) : Prop :=
  (s.scheduler i).stopping = false → (s.scheduler i).queue ≠ [] → ¬ s.Room i

theorem startDial_same (field : DialScheduler → α)
    (kept : ∀ own active history,field { own with active := active, dialHistory := history } = field own)
    (i : ι) (vp : ValidatedPeer) (added : TimePoint) :
    field ((s.startDial i vp added).scheduler j) = field (s.scheduler j) :=
  put_same field (kept ..) j

theorem release_same (field : DialScheduler → α)
    (kept : ∀ own active history,field { own with active := active, dialHistory := history } = field own)
    (i : ι) (expired : TimePoint) : field ((s.release i expired).scheduler j) = field (s.scheduler j) := by
  have counted : ∀ own : DialScheduler,field { own with active := own.active - 1 } = field own :=
    fun own => kept own (own.active - 1) own.dialHistory
  by_cases own : j = i
  · subst own
    unfold release
    dsimp only
    split
    · simpa using counted (s.scheduler j)
    · simpa using kept (s.scheduler j) _ _
  · unfold release
    dsimp only
    split <;> simp [own]

theorem report_same (field : DialScheduler → α) (kept : ∀ own count,field { own with validatedCount := count } = field own)
    (s : Dialing ι) (d : Nat) (dial : Dial ι) (reason : DisconnectReason) (i : ι) :
    field ((s.report d dial reason).scheduler i) = field (s.scheduler i) := by
  unfold report
  split
  · exact put_same field (kept ..) i
  · rfl

theorem startDial_room (room : (s.startDial j vp added).Room i) : s.Room i := by
  obtain ⟨own,all⟩ := room
  rw [startDial_active] at own
  refine ⟨lt_of_le_of_lt ?_ own,lt_trans (Int.lt_succ _) all⟩
  split <;> simp

omit [DecidableEq ι] in
theorem Conserves.unless (kept : Conserves s i)
    (stopping : (next.scheduler i).stopping = false → (s.scheduler i).stopping = false)
    (queue : (next.scheduler i).queue ≠ [] → (s.scheduler i).queue ≠ []) (room : next.Room i → s.Room i) : Conserves next i :=
  fun going waiting free => kept (stopping going) (queue waiting) (room free)

theorem Conserves.startDial (kept : Conserves s i) (j : ι) (vp : ValidatedPeer) (added : TimePoint) :
    Conserves (s.startDial j vp added) i := by
  refine kept.unless ?_ ?_ startDial_room
  · intro going
    rwa [startDial_same DialScheduler.stopping (fun _ _ _ => rfl)] at going
  · intro waiting
    rwa [startDial_same DialScheduler.queue (fun _ _ _ => rfl)] at waiting

omit [DecidableEq ι] in
theorem room_same (pool : next.pool = s.pool) (active : (next.scheduler i).active = (s.scheduler i).active) :
    next.Room i ↔ s.Room i := by
  rw [Room,Room,pool,active]

theorem Conserves.put (kept : Conserves s i) (stopping : own.stopping = (s.scheduler j).stopping)
    (queue : own.queue ≠ [] → (s.scheduler j).queue ≠ []) (active : own.active = (s.scheduler j).active) :
    Conserves (s.put j own) i := by
  refine kept.unless ?_ ?_ (room_same (by rfl) (put_same DialScheduler.active active i)).mp
  · intro going
    rwa [put_same DialScheduler.stopping stopping] at going
  · intro waiting
    by_cases equal : i = j
    · subst equal
      exact queue (by simpa using waiting)
    · simpa [equal] using waiting

theorem enqueue_conserves (kept : Conserves s i) (j : ι) (vp : ValidatedPeer) (expired asked added : TimePoint) :
    Conserves (s.enqueue j vp expired asked added) i := by
  have pruned : Conserves (s.pruned j expired) i := kept.put (by rfl) (fun waiting => waiting) (by rfl)
  rcases enqueue_cases s j vp expired asked added with same | same | ⟨_,same⟩ | ⟨full,same⟩
  · rw [same]
    exact kept
  · exact same ▸ pruned
  · exact same ▸ pruned.startDial j vp added
  · rw [same]
    by_cases equal : i = j
    · subst equal
      exact fun _ _ room => full ((room_same (by rfl) (by simp)).mp room)
    · exact pruned.unless (by simp [equal]) (by simp [equal]) (room_same (by rfl) (by simp [equal])).mp

theorem enqueue_draining (s : Dialing ι) (i : ι) (vp : ValidatedPeer) (expired asked added : TimePoint) :
    (s.enqueue i vp expired asked added).draining = s.draining := by
  rcases enqueue_cases s i vp expired asked added with same | same | ⟨_,same⟩ | ⟨_,same⟩
  · rw [same]
  · rw [same]
    rfl
  · rw [same]
    rfl
  · rw [same]
    rfl

theorem stop_conserves (kept : Conserves s i) (j : ι) : Conserves (s.stop j) i := by
  by_cases equal : i = j
  · subst equal
    intro going
    simp [stop] at going
  · exact kept.unless (by simp [stop,equal]) (by simp [stop,equal]) (room_same (by rfl) (by simp [stop,equal])).mp

theorem onConnected_draining (s : Dialing ι) (d : Nat) : (s.onConnected d).draining = s.draining := by
  simp only [onConnected]
  split <;> rfl

theorem onConnected_conserves (kept : Conserves s i) (d : Nat) : Conserves (s.onConnected d) i := by
  simp only [onConnected]
  split
  · exact kept
  · rename_i dial _
    have marked : Conserves { s with dials := s.dials.set d { dial with wasValidated := true } } i := kept
    exact marked.put (by rfl) (fun waiting => waiting) (by rfl)

omit [DecidableEq ι] in
theorem onDisconnect_draining (d : Nat) : (s.onDisconnect d reason).draining = s.draining := by
  simp only [onDisconnect]
  split
  · rfl
  split <;> rfl

omit [DecidableEq ι] in
theorem onDisconnect_conserves (kept : Conserves s i) (d : Nat) (reason : DisconnectReason) :
    Conserves (s.onDisconnect d reason) i := by
  simp only [onDisconnect]
  split
  · exact kept
  split
  · exact kept
  · exact kept

theorem drain_conserves (asked added : TimePoint) (kept : i ∈ s.draining ∨ Conserves s i) :
    i ∈ (s.drain asked added).draining ∨ Conserves (s.drain asked added) i := by
  rcases drain_cases s asked added with same | ⟨j,outer,loops,⟨ends,same⟩ | ⟨vp,queue,waiting,_,popped⟩⟩
  · rw [same]
    exact kept
  · rw [same]
    by_cases own : i = j
    · subst own
      exact .inr fun _ waiting => ends.resolve_left waiting
    · exact kept.imp (fun inside => by simpa [loops,own] using inside) (fun held => held)
  · have waits : i ∈ (s.put j { s.scheduler j with queue := queue }).draining ∨
        Conserves (s.put j { s.scheduler j with queue := queue }) i :=
      kept.imp (fun inside => inside) (fun held => held.put (by rfl) (by simp [waiting]) (by rfl))
    rcases popped with same | same
    · exact same ▸ waits
    · rw [same]
      exact waits.imp (fun inside => inside) (fun held => held.startDial j vp added)

theorem release_conserves : i ∈ (s.release i expired).draining ∨ Conserves (s.release i expired) i := by
  simp only [release]
  split_ifs with stopping
  · refine .inr (fun going => ?_)
    simp [stopping] at going
  · exact .inl (List.mem_cons_self ..)

def owners (s : Dialing ι) : List ι := s.dials.map Dial.owner

omit [DecidableEq ι] in
theorem owners_set (found : s.dials[d]? = some dial) (owner : changed.owner = dial.owner)
    (dials : next.dials = s.dials.set d changed) : s.owners <+: next.owners := by
  obtain ⟨inside,rfl⟩ := List.getElem?_eq_some_iff.mp found
  have same : next.owners = s.owners := by
    simpa [owners,dials,owner] using @List.set_getElem_self _ s.owners d (by simpa [owners] using inside)
  rw [same]

omit [DecidableEq ι] in
theorem Spawns.owners (spawns : Spawns s next) : s.owners <+: next.owners := by
  rcases spawns with same | ⟨i,vp,started,added⟩
  · rw [Dialing.owners,Dialing.owners,same]
  · exact ⟨[i],by simp [Dialing.owners,added]⟩

theorem owners_kept (allowed : s.Allowed action) : s.owners <+: (s.apply action).owners := by
  cases action with
  | enqueue i vp expired asked added => exact (enqueue_spawns ..).owners
  | stop i => exact List.prefix_rfl
  | done d reason expired =>
    obtain ⟨dial,found,-⟩ := allowed
    simp only [apply,onDone,found]
    exact owners_set found (by rfl) ((release_dials ..).trans (report_dials ..))
  | connected d =>
    obtain ⟨dial,found⟩ := allowed
    simp only [apply,onConnected,found]
    exact owners_set found (by rfl) rfl
  | disconnect d reason =>
    obtain ⟨dial,found,-⟩ := allowed
    simp only [apply,onDisconnect,found]
    split
    · exact owners_set found (by rfl) rfl
    · exact List.prefix_rfl
  | drain asked added => exact (drain_spawns ..).owners

def OwnedElsewhere (s : Dialing ι) (i : ι) (d : Nat) : Prop := ∃ j,s.owners[d]? = some j ∧ j ≠ i

omit [DecidableEq ι] in
theorem OwnedElsewhere.kept (elsewhere : OwnedElsewhere s i d) (owners : s.owners <+: next.owners) :
    OwnedElsewhere next i d := by
  obtain ⟨j,found,other⟩ := elsewhere
  obtain ⟨tail,whole⟩ := owners
  have inside := (List.getElem?_eq_some_iff.mp found).1
  exact ⟨j,by rw [← whole,List.getElem?_append_left inside,found],other⟩

def Blocked (s : Dialing ι) (i : ι) : Prop := (s.scheduler i).queue ≠ [] ∧ s.pool.maxTotal ≤ s.pool.activeTotal

-- A dial of another scheduler made the room, and none of this one has ended since.
def ReturnedElsewhere (start : Dialing ι) (past : List (Action ι)) (s : Dialing ι) (i : ι) : Prop :=
  ∃ front d reason expired back before,past = front ++ .done d reason expired :: back ∧
    (machine ι).Sequence start front before ∧ before.Blocked i ∧
    ∀ e reason' expired',.done e reason' expired' ∈ .done d reason expired :: back → s.OwnedElsewhere i e

theorem ReturnedElsewhere.kept (returned : ReturnedElsewhere start past s i)
    (allowed : s.Allowed action) (other : ∀ d reason expired,action = .done d reason expired → s.OwnedElsewhere i d) :
    ReturnedElsewhere start (past ++ [action]) (s.apply action) i := by
  obtain ⟨front,d,reason,expired,back,before,split,path,blocked,elsewhere⟩ := returned
  refine ⟨front,d,reason,expired,back ++ [action],before,by simp [split],path,blocked,?_⟩
  intro e reason' expired' member
  rw [← List.cons_append,List.mem_append,List.mem_singleton] at member
  refine OwnedElsewhere.kept ?_ (owners_kept allowed)
  exact member.elim (elsewhere e reason' expired') fun now => other e reason' expired' now.symm

theorem release_draining (inside : i ∈ s.draining) : i ∈ (s.release j expired).draining := by
  simp only [release]
  split
  · exact inside
  · exact List.mem_cons_of_mem _ inside

theorem report_draining : (s.report d dial reason).draining = s.draining := by
  unfold report
  split <;> rfl

theorem release_elsewhere (kept : Conserves s i) (other : i ≠ dial.owner) :
    Conserves ((s.report d dial reason).release dial.owner expired) i ∨ s.Blocked i := by
  by_cases blocked : s.Blocked i
  · exact .inr blocked
  refine .inl fun going waiting free => ?_
  rw [release_same DialScheduler.stopping (fun _ _ _ => rfl),report_same DialScheduler.stopping (fun _ _ => rfl)] at going
  rw [release_same DialScheduler.queue (fun _ _ _ => rfl),report_same DialScheduler.queue (fun _ _ => rfl)] at waiting
  have own := free.1
  rw [release_active,report_active,if_neg other,sub_zero,release_pool,report_pool] at own
  exact kept going waiting ⟨own,not_le.mp fun full => blocked ⟨waiting,full⟩⟩

def Settled (start : Dialing ι) (past : List (Action ι)) (s : Dialing ι) (i : ι) : Prop :=
  (i ∈ s.draining ∨ Conserves s i) ∨ ReturnedElsewhere start past s i

theorem apply_settled (path : (machine ι).Sequence start past s) (allowed : s.Allowed action) (settled : Settled start past s i) :
    Settled start (past ++ [action]) (s.apply action) i := by
  have onward (other : ∀ d reason expired,action ≠ .done d reason expired)
      (step : i ∈ s.draining ∨ Conserves s i → i ∈ (s.apply action).draining ∨ Conserves (s.apply action) i) :
      Settled start (past ++ [action]) (s.apply action) i :=
    settled.imp step (fun returned => returned.kept allowed fun d reason expired same => absurd same (other d reason expired))
  cases action with
  | enqueue j vp expired asked added =>
    refine onward (by simp) (Or.imp ?_ (fun kept => enqueue_conserves kept j vp expired asked added))
    exact fun inside => (enqueue_draining s j vp expired asked added).symm ▸ inside
  | stop j => exact onward (by simp) (Or.imp (fun inside => inside) (fun kept => stop_conserves kept j))
  | done d reason expired =>
    have ⟨dial,found,_⟩ := allowed
    by_cases own : dial.owner = i
    · subst own
      refine .inl ?_
      simp only [apply,onDone,found]
      exact release_conserves ..
    · have elsewhere : OwnedElsewhere s i d := ⟨dial.owner,by simp [owners,found],own⟩
      have done : s.apply (.done d reason expired) = (s.report d dial reason).release dial.owner expired := by
        simp only [apply,onDone,found]
      rcases settled with (inside | kept) | returned
      · rw [← report_draining] at inside
        exact .inl (.inl (done ▸ release_draining inside))
      · rcases release_elsewhere kept (Ne.symm own) with kept | blocked
        · rw [done]
          exact .inl (.inr kept)
        · refine .inr ⟨past,d,reason,expired,[],s,rfl,path,blocked,?_⟩
          intro e reason' expired' member
          cases List.mem_singleton.mp member
          exact elsewhere.kept (owners_kept allowed)
      · refine .inr (returned.kept allowed ?_)
        rintro _ _ _ ⟨⟩
        exact elsewhere
  | connected d =>
    refine onward (by simp) (Or.imp ?_ (fun kept => onConnected_conserves kept d))
    exact fun inside => (onConnected_draining s d).symm ▸ inside
  | disconnect d reason =>
    refine onward (by simp) (Or.imp ?_ (fun kept => onDisconnect_conserves kept d reason))
    exact fun inside => (onDisconnect_draining ..).symm ▸ inside
  | drain asked added => exact onward (by simp) (drain_conserves asked added)

theorem settled_reached (path : (machine ι).Sequence (fresh maxTotal maxPerChain hasFeedback filterFn) actions s)
    (i : ι) : Settled (fresh maxTotal maxPerChain hasFeedback filterFn) actions s i := by
  refine (path.history (fun past s => (machine ι).Sequence _ past s ∧ Settled _ past s i) ⟨.nil,.inl (.inr ?_)⟩ ?_).2
  · intro _ waiting
    exact absurd rfl waiting
  · rintro past before action allowed ⟨path,settled⟩
    exact ⟨path.append (.single allowed),apply_settled path allowed settled⟩

theorem work_conserved (maxTotal maxPerChain : Int) (hasFeedback : ι → Bool) (filterFn : ι → Option (DiscoveredPeer → Bool))
    (path : (machine ι).Sequence (fresh maxTotal maxPerChain hasFeedback filterFn) actions s)
    (between : s.draining = []) (i : ι) :
    (Conserves s i ∨ ReturnedElsewhere (fresh maxTotal maxPerChain hasFeedback filterFn) actions s i) ∧
      ((∀ j,j = i) → Conserves s i) := by
  have settled : Conserves s i ∨ ReturnedElsewhere (fresh maxTotal maxPerChain hasFeedback filterFn) actions s i := by
    rcases settled_reached path i with (inside | kept) | returned
    · simp [between] at inside
    · exact .inl kept
    · exact .inr returned
  refine ⟨settled,?_⟩
  intro single
  rcases settled with kept | ⟨front,d,reason,expired,back,_,_,_,_,elsewhere⟩
  · exact kept
  · obtain ⟨j,_,other⟩ := elsewhere d reason expired (List.mem_cons_self ..)
    exact absurd (single j) other

theorem contended_conserves :
    (Conserves (contended.foldl apply twoChains) 1 ∨
        ReturnedElsewhere twoChains contended (contended.foldl apply twoChains) 1) ∧
      ((∀ j : Fin 2,j = 1) → Conserves (contended.foldl apply twoChains) 1) :=
  work_conserved 1 1 (fun _ => false) (fun _ => none) contended_taken (by decide) 1

theorem contended_waits : ∃ actions s,(machine (Fin 2)).Sequence twoChains actions s ∧ s.draining = [] ∧
    (s.scheduler 1).stopping = false ∧ (s.scheduler 1).queue = [anyPeer] ∧ s.Room 1 :=
  ⟨contended,_,contended_taken,by decide,by decide,by decide,by decide⟩

end EvmRelay.Discv4.Dialing
