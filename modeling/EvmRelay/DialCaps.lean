import EvmRelay.DialScheduler
import EvmRelay.SlotPool

namespace EvmRelay.Discv4.Dialing

variable [DecidableEq ι] {s next : Dialing ι} {d : Nat}

def running (s : Dialing ι) (i : ι) : Nat := s.dials.countP (fun dial => dial.owner = i && !dial.done)

@[simp] theorem put_scheduler (i : ι) (own : DialScheduler) :
    (s.put i own).scheduler j = if j = i then own else s.scheduler j :=
  Function.update_apply ..

theorem put_same (field : DialScheduler → α) (same : field own = field (s.scheduler i)) (j : ι) :
    field ((s.put i own).scheduler j) = field (s.scheduler j) := by
  by_cases equal : j = i
  · subst equal
    simpa using same
  · simp [equal]

theorem spawnDial_running (j : ι) (started : TimePoint) :
    (s.spawnDial i vp started).running j = s.running j + if j = i then 1 else 0 := by
  by_cases equal : j = i
  · subst equal
    simp [running,spawnDial]
  · simp [running,spawnDial,equal,Ne.symm equal]

theorem startDial_active :
    ((s.startDial i vp added).scheduler j).active = (s.scheduler j).active + if j = i then 1 else 0 := by
  by_cases equal : j = i
  · subst equal
    simp [startDial,spawnDial]
  · simp [startDial,spawnDial,equal]

theorem release_pool : (s.release i expired).pool = { s.pool with activeTotal := s.pool.activeTotal - 1 } := by
  simp only [release]
  split <;> rfl

theorem release_dials (i : ι) : (s.release i expired).dials = s.dials := by
  simp only [release]
  split <;> rfl

theorem release_active : ((s.release i expired).scheduler j).active = (s.scheduler j).active - if j = i then 1 else 0 := by
  simp only [release]
  by_cases equal : j = i
  · subst equal
    split <;> simp
  · split <;> simp [equal]

theorem report_pool : (s.report d dial reason).pool = s.pool := by
  simp only [report]
  split <;> rfl

theorem report_dials (s : Dialing ι) (d : Nat) (reason : DisconnectReason) :
    (s.report d dial reason).dials = s.dials.set d { dial with
      reported := dial.reported || (s.scheduler dial.owner).hasFeedback && !dial.reported, done := true } := by
  simp only [report]
  split <;> rfl

theorem report_active : ((s.report d dial reason).scheduler j).active = (s.scheduler j).active := by
  simp only [report]
  split
  · exact put_same DialScheduler.active (by rfl) j
  · rfl

theorem running_set (found : s.dials[d]? = some dial) (owner : changed.owner = dial.owner)
    (done : changed.done = dial.done) (dials : next.dials = s.dials.set d changed) (j : ι) :
    next.running j = s.running j := by
  obtain ⟨inside,at_⟩ := List.getElem?_eq_some_iff.mp found
  have counted : 0 < s.running j ∨ (decide (dial.owner = j) && !dial.done) = false := by
    cases mine : (decide (dial.owner = j) && !dial.done) with
    | false => exact .inr rfl
    | true => exact .inl (List.countP_pos_iff.mpr ⟨dial,List.mem_of_getElem? found,mine⟩)
  simp only [running,dials,List.countP_set inside,at_,owner,done]
  rcases counted with some_ | none_
  · split
    · exact Nat.sub_add_cancel some_
    · rfl
  · simp [none_]

theorem running_done (found : s.dials[d]? = some dial) (pending : dial.done = false)
    (done : changed.done = true) (dials : next.dials = s.dials.set d changed) : next.running j = s.running j - if j = dial.owner then 1 else 0 := by
  obtain ⟨inside,at_⟩ := List.getElem?_eq_some_iff.mp found
  simp [running,dials,List.countP_set inside,at_,done,pending,eq_comm]

theorem running_pos (found : s.dials[d]? = some dial) (pending : dial.done = false) : 0 < s.running dial.owner :=
  List.countP_pos_iff.mpr ⟨dial,List.mem_of_getElem? found,by simp [pending]⟩

variable [Fintype ι]

-- The counters of the code against the slots that are really held: a slot is
-- held from the spawn of a dial to its on_done.
structure Held (s : Dialing ι) (slots : SlotPool ι) : Prop where
  maxTotal : s.pool.maxTotal = slots.capTotal
  maxPerChain : s.pool.maxPerChain = slots.capEach
  active : ∀ i,(s.scheduler i).active = slots.held i
  activeTotal : s.pool.activeTotal = slots.total
  running : ∀ i,s.running i = slots.held i

theorem Held.unchanged (held : Held s slots) (pool : next.pool = s.pool)
    (active : ∀ i,(next.scheduler i).active = (s.scheduler i).active) (running : ∀ i,next.running i = s.running i) :
    Held next slots := by
  refine ⟨?_,?_,?_,?_,?_⟩
  · rw [pool,held.maxTotal]
  · rw [pool,held.maxPerChain]
  · intro i
    rw [active,held.active]
  · rw [pool,held.activeTotal]
  · intro i
    rw [running,held.running]

theorem Held.put (held : Held s slots) (same : own.active = (s.scheduler i).active) : Held (s.put i own) slots :=
  held.unchanged rfl (put_same DialScheduler.active same) (fun _ => rfl)

theorem Held.startDial (held : Held s slots) (i : ι) (vp : ValidatedPeer) (added : TimePoint) :
    Held (s.startDial i vp added) (slots.apply (.take i)) := by
  refine ⟨held.maxTotal,held.maxPerChain,?_,?_,?_⟩
  · intro j
    rw [startDial_active,held.active]
    simp [SlotPool.apply]
  · rw [SlotPool.take_total]
    simp [Dialing.startDial,spawnDial,Dialing.put,held.activeTotal]
  · intro j
    exact (spawnDial_running ..).trans (congrArg (· + _) (held.running j))

theorem Held.room (held : Held s slots) (room : s.Room i) : (SlotPool.machine ι).Allowed slots (.take i) := by
  rw [Room,held.active,held.activeTotal,held.maxTotal,held.maxPerChain] at room
  exact room

theorem Held.onDone (held : Held s slots) (found : s.dials[d]? = some dial) (pending : dial.done = false)
    (reason : DisconnectReason) (expired : TimePoint) : (SlotPool.machine ι).Allowed slots (.giveBack dial.owner) ∧
      Held (s.onDone d reason expired) (slots.apply (.giveBack dial.owner)) := by
  have positive := held.running dial.owner ▸ running_pos found pending
  have total := SlotPool.giveBack_total positive
  refine ⟨positive,?_⟩
  simp only [Dialing.onDone,found]
  refine ⟨?_,?_,?_,?_,?_⟩
  · rw [release_pool,report_pool]
    exact held.maxTotal
  · rw [release_pool,report_pool]
    exact held.maxPerChain
  · intro j
    rw [release_active,report_active,held.active]
    by_cases own : j = dial.owner
    · subst own
      simp [SlotPool.apply,Nat.cast_pred positive]
    · simp [SlotPool.apply,own]
  · rw [release_pool,report_pool]
    simp only [held.activeTotal]
    omega
  · intro j
    rw [running_done found pending _ ((release_dials ..).trans (report_dials ..)),held.running]
    · rfl
    · rfl

theorem apply_moves (allowed : s.Allowed action) (held : Held s slots) :
    ∃ moves following,(SlotPool.machine ι).Sequence slots moves following ∧ Held (s.apply action) following := by
  cases action with
  | enqueue i vp expired asked added =>
    have pruned : Held (s.pruned i expired) slots := held.put (by rfl)
    simp only [Dialing.apply]
    rcases enqueue_cases s i vp expired asked added with same | same | ⟨room,same⟩ | ⟨_,same⟩
    · exact ⟨[],slots,.nil,by rw [same]; exact held⟩
    · exact ⟨[],slots,.nil,same ▸ pruned⟩
    · exact ⟨_,_,.single (pruned.room room),same ▸ pruned.startDial i vp added⟩
    · exact ⟨[],slots,.nil,same ▸ pruned.put (by rfl)⟩
  | stop i => exact ⟨[],slots,.nil,held.unchanged rfl (put_same DialScheduler.active (by rfl)) (fun _ => rfl)⟩
  | done d reason expired =>
    obtain ⟨dial,found,pending⟩ := allowed
    obtain ⟨given,after⟩ := held.onDone found pending reason expired
    exact ⟨_,_,.single given,after⟩
  | connected d =>
    obtain ⟨dial,found⟩ := allowed
    refine ⟨[],slots,.nil,?_⟩
    simp only [Dialing.apply,onConnected,found]
    have marked : Held { s with dials := s.dials.set d { dial with wasValidated := true } } slots :=
      held.unchanged rfl (fun _ => rfl) (running_set found (by rfl) (by rfl) rfl)
    exact marked.put (by rfl)
  | disconnect d reason =>
    obtain ⟨dial,found,-⟩ := allowed
    refine ⟨[],slots,.nil,?_⟩
    simp only [Dialing.apply,onDisconnect,found]
    split
    · exact held.unchanged rfl (fun _ => rfl) (running_set found (by rfl) (by rfl) rfl)
    · exact held
  | drain asked added =>
    simp only [Dialing.apply]
    rcases drain_cases s asked added with same | ⟨i,_,_,⟨_,same⟩ | ⟨vp,queue,_,room,popped⟩⟩
    · exact ⟨[],slots,.nil,by rw [same]; exact held⟩
    · exact ⟨[],slots,.nil,same ▸ held.unchanged rfl (fun _ => rfl) (fun _ => rfl)⟩
    · have waits : Held (s.put i { s.scheduler i with queue := queue }) slots := held.put (by rfl)
      rcases popped with same | same
      · exact ⟨[],slots,.nil,same ▸ waits⟩
      · exact ⟨_,_,.single (held.room room),same ▸ waits.startDial i vp added⟩

def fresh (maxTotal maxPerChain : Int) (hasFeedback : ι → Bool) (filterFn : ι → Option (DiscoveredPeer → Bool)) :
    Dialing ι :=
  new maxTotal maxPerChain (fun i => .new (hasFeedback i) (filterFn i))

theorem held_at_start (maxTotal maxPerChain : Int) (hasFeedback : ι → Bool) (filterFn : ι → Option (DiscoveredPeer → Bool)) :
    Held (fresh maxTotal maxPerChain hasFeedback filterFn) ⟨maxTotal,maxPerChain,fun _ => 0⟩ :=
  ⟨rfl,rfl,fun _ => rfl,by simp [fresh,new,WatcherPool.new,SlotPool.empty_total],fun _ => rfl⟩

theorem held_reached (path : (machine ι).Sequence s actions next) (held : Held s slots) :
    ∃ moves following,(SlotPool.machine ι).Sequence slots moves following ∧ Held next following := by
  refine path.keeps (fun s => ∃ moves following,(SlotPool.machine ι).Sequence slots moves following ∧
    Held s following) ⟨[],slots,.nil,held⟩ ?_
  rintro s action allowed ⟨moves,middle,taken,held⟩
  obtain ⟨more,following,onward,after⟩ := apply_moves allowed held
  exact ⟨_,following,taken.append onward,after⟩

theorem dial_caps (maxTotal maxPerChain : Int) (someTotal : 0 ≤ maxTotal) (somePerChain : 0 ≤ maxPerChain)
    (hasFeedback : ι → Bool) (filterFn : ι → Option (DiscoveredPeer → Bool))
    (path : (machine ι).Sequence (fresh maxTotal maxPerChain hasFeedback filterFn) actions s) :
    (∀ i,0 ≤ (s.scheduler i).active ∧ (s.scheduler i).active ≤ maxPerChain ∧ (s.scheduler i).active = s.running i) ∧
    ∑ i,(s.scheduler i).active = s.pool.activeTotal ∧ s.pool.activeTotal ≤ maxTotal := by
  obtain ⟨moves,slots,taken,held⟩ := held_reached path (held_at_start maxTotal maxPerChain hasFeedback filterFn)
  obtain ⟨each,all⟩ := SlotPool.within_kept taken ⟨fun _ => by simpa using somePerChain,by simpa [SlotPool.total]⟩
  obtain ⟨capTotal,capEach⟩ := SlotPool.caps_kept taken
  refine ⟨?_,?_,?_⟩
  · intro i
    rw [held.active,held.running]
    exact ⟨Int.natCast_nonneg _,(each i).trans capEach.le,rfl⟩
  · simp [held.active,held.activeTotal,SlotPool.total,Nat.cast_sum]
  · rw [held.activeTotal]
    exact all.trans capTotal.le

def anyPeer : ValidatedPeer := ⟨⟨FixedBytes.zeros 64,[],0#16,30303#16,none⟩,FixedBytes.zeros 64⟩

def twoChains : Dialing (Fin 2) := fresh 1 1 (fun _ => false) (fun _ => none)

def contended : List (Action (Fin 2)) :=
  [.enqueue 0 anyPeer 0 0 0,.enqueue 1 anyPeer 0 0 0,.done 0 .kTcpError 1,.drain 1 1]

theorem contended_taken : (machine (Fin 2)).Sequence twoChains contended (contended.foldl apply twoChains) :=
  .cons trivial (.cons trivial (.cons ⟨_,rfl,rfl⟩ (.cons (List.cons_ne_nil 0 []) .nil)))

theorem contended_caps : (∀ i,0 ≤ ((contended.foldl apply twoChains).scheduler i).active ∧
    ((contended.foldl apply twoChains).scheduler i).active ≤ 1 ∧
      ((contended.foldl apply twoChains).scheduler i).active = (contended.foldl apply twoChains).running i) ∧
    ∑ i,((contended.foldl apply twoChains).scheduler i).active = (contended.foldl apply twoChains).pool.activeTotal ∧
    (contended.foldl apply twoChains).pool.activeTotal ≤ 1 :=
  dial_caps 1 1 (by decide) (by decide) (fun _ => false) (fun _ => none) contended_taken

end EvmRelay.Discv4.Dialing
