import EvmRelay.DialQueues
import EvmRelay.PeerAcceptance

namespace EvmRelay.Eth
open Discv4

namespace Feeding

inductive Callback where
  | done
  | disconnect
  deriving DecidableEq

def Action.callback (d : Nat) : Action ι → Option Callback
  | .done other _ _ => if other = d then some .done else none
  | .disconnect other _ _ => if other = d then some .disconnect else none
  | _ => none

def callbacks (d : Nat) (actions : List (Action ι)) : List Callback := actions.filterMap (Action.callback d)

theorem callbacks_snoc : callbacks d (actions ++ [action]) = callbacks d actions ++ (action.callback d).toList := by
  unfold callbacks
  cases call : action.callback d <;> simp [call]

def told (d : Nat) (s : Feeding ι) : Nat := s.dialing.feedback.countP fun feedback => feedback.dial = d

def answered (d : Nat) (s : Feeding ι) : Nat := s.answers.countP fun answer => answer.dial = some d

-- The first call tells of the end, and so does every Disconnect after it.
def tells : List Callback → Nat
  | [] => 0
  | _ :: rest => rest.count .disconnect + 1

theorem tells_snoc_disconnect : tells (calls ++ [.disconnect]) = tells calls + 1 := by
  cases calls with
  | nil => rfl
  | cons first rest => simp [tells]

theorem tells_snoc_done : tells (calls ++ [.done]) = tells calls + if calls = [] then 1 else 0 := by
  cases calls with
  | nil => rfl
  | cons first rest => simp [tells]

theorem tells_le_one_iff (once : calls.count .done ≤ 1) :
    tells calls ≤ 1 ↔ calls ∈ [[],[.done],[.disconnect],[.disconnect,.done]] := by
  match calls with
  | [] => simp [tells]
  | [first] => cases first <;> simp [tells]
  | [first,second] => cases first <;> cases second <;> simp [tells] at once ⊢
  | first :: second :: third :: rest =>
    refine iff_of_false (fun few => ?_) (by simp)
    cases second <;> cases third <;> simp [tells,List.count_cons] at once few
    omega

variable [DecidableEq ι]

structure Grows (s next : Dialing ι) : Prop where
  spawns : Dialing.Spawns s next
  feedback : next.feedback = s.feedback
  hasFeedback : ∀ i,(next.scheduler i).hasFeedback = (s.scheduler i).hasFeedback

omit [DecidableEq ι] in
theorem Grows.refl (s : Dialing ι) : Grows s s := ⟨.inl rfl,rfl,fun _ => rfl⟩

theorem put_grows {i : ι} (same : own.hasFeedback = (s.scheduler i).hasFeedback) :
    Grows s (s.put i own) :=
  ⟨.inl rfl,rfl,Dialing.put_same DialScheduler.hasFeedback same⟩

theorem enqueue_grows (i : ι) (expired added : TimePoint) : Grows s (s.enqueue i vp expired asked added) := by
  refine ⟨Dialing.enqueue_spawns ..,?_,?_⟩
  · rcases Dialing.enqueue_cases s i vp expired asked added with same | same | ⟨_,same⟩ | ⟨_,same⟩ <;> rw [same] <;> rfl
  · intro j
    have pruned : ((s.pruned i expired).scheduler j).hasFeedback = (s.scheduler j).hasFeedback := (put_grows (by rfl)).hasFeedback j
    rcases Dialing.enqueue_cases s i vp expired asked added with same | same | ⟨_,same⟩ | ⟨_,same⟩
    · rw [same]
    · rw [same,pruned]
    · rw [same,← pruned]
      exact Dialing.put_same DialScheduler.hasFeedback (by rfl) j
    · rw [same,← pruned]
      exact Dialing.put_same DialScheduler.hasFeedback (by rfl) j

theorem drain_grows (s : Dialing ι) (added : TimePoint) : Grows s (s.drain asked added) := by
  refine ⟨Dialing.drain_spawns ..,?_,?_⟩
  · rcases Dialing.drain_cases s asked added with same | ⟨i,outer,_,⟨_,same⟩ | ⟨vp,queue,_,_,same | same⟩⟩ <;> rw [same] <;> rfl
  · intro j
    rcases Dialing.drain_cases s asked added with same | ⟨i,outer,_,⟨_,same⟩ | ⟨vp,queue,_,_,same | same⟩⟩
    · rw [same]
    · rw [same]
    · rw [same]
      exact Dialing.put_same DialScheduler.hasFeedback (by rfl) j
    · rw [same]
      refine (Dialing.put_same DialScheduler.hasFeedback (by rfl) j).trans ?_
      exact Dialing.put_same DialScheduler.hasFeedback (by rfl) j

theorem release_grows (i : ι) : Grows s (s.release i expired) := by
  refine ⟨.inl (Dialing.release_dials ..),?_,fun j => Dialing.release_same _ (fun _ _ _ => rfl) ..⟩
  unfold Dialing.release
  dsimp only
  split <;> rfl

variable {s : Feeding ι} {d : Nat}

theorem Offered.grows (offered : Offered s peer allowKnownPeer clock result) :
    Grows s.dialing result.2.dialing ∧ result.2.queue.scheduler = s.queue.scheduler ∧ result.2.answers = s.answers := by
  cases offered with
  | enqueued => exact ⟨enqueue_grows ..,rfl,rfl⟩
  | _ => exact ⟨.refl _,rfl,rfl⟩

theorem report_grows (s : Feeding ι) (dial : Option Nat) (feedback : EthPeerDisconnectFeedback) (clock : Readings) :
    Grows s.dialing (s.report dial feedback clock).dialing ∧ (s.report dial feedback clock).queue.scheduler = s.queue.scheduler ∧
    ∀ d,answered d (s.report dial feedback clock) = answered d s + if dial = some d then 1 else 0 := by
  have reported := reportPeerDisconnected_reported s feedback clock
  unfold report answered
  generalize s.reportPeerDisconnected feedback clock = result at reported
  have kept : Grows s.dialing result.2.dialing ∧ result.2.queue.scheduler = s.queue.scheduler ∧ result.2.answers = s.answers := by
    cases reported with
    | suppressed => exact ⟨.refl _,rfl,rfl⟩
    | dropped => exact ⟨.refl _,rfl,rfl⟩
    | retried _ _ _ _ _ offered => exact offered.grows
  refine ⟨kept.1,kept.2.1,fun d => ?_⟩
  dsimp only
  rw [kept.2.2,List.countP_append,List.countP_singleton]
  simp

-- The flags of the dial, and what was told of it, after the calls of its two
-- callbacks so far.
structure Told (hasFeedback : ι → Bool) (own : ι) (d : Nat) (calls : List Callback) (s : Feeding ι) : Prop where
  constant : ∀ i,(s.dialing.scheduler i).hasFeedback = hasFeedback i
  scheduler : s.queue.scheduler = some own
  once : calls.count .done ≤ 1
  unspawned : s.dialing.dials[d]? = none → calls = [] ∧ told d s = 0 ∧ answered d s = 0
  done : ∀ dial,s.dialing.dials[d]? = some dial → (dial.done = true ↔ .done ∈ calls)
  reported : ∀ dial,s.dialing.dials[d]? = some dial → hasFeedback dial.owner = true → (dial.reported = true ↔ calls ≠ [])
  told : ∀ dial,s.dialing.dials[d]? = some dial → told d s = if hasFeedback dial.owner then tells calls else 0
  answered : ∀ dial,s.dialing.dials[d]? = some dial → answered d s = if dial.owner = own then Feeding.told d s else 0

def marks (dial : Dial ι) : ι × Bool × Bool := (dial.owner,dial.reported,dial.done)

omit [DecidableEq ι] in
theorem marked {before after : Option (Dial ι)} (same : after.map marks = before.map marks) (found : after = some dial) :
    ∃ earlier,before = some earlier ∧ earlier.owner = dial.owner ∧ earlier.reported = dial.reported ∧ earlier.done = dial.done := by
  subst found
  cases before with
  | none => exact absurd same nofun
  | some earlier =>
    have fields := Option.some.inj same
    simp only [marks,Prod.mk.injEq] at fields
    exact ⟨earlier,rfl,fields.1.symm,fields.2.1.symm,fields.2.2.symm⟩

def Untouched (d : Nat) (s next : Dialing ι) : Prop :=
  next.dials[d]?.map marks = s.dials[d]?.map marks ∨
  s.dials[d]? = none ∧ ∃ i vp started,next.dials[d]? = some ⟨i,vp,started,false,false,false⟩

omit [DecidableEq ι] in
theorem Grows.untouched {s next : Dialing ι} (grows : Grows s next) (d : Nat) : Untouched d s next := by
  rcases grows.spawns with same | ⟨i,vp,started,spawned⟩
  · exact .inl (by rw [same])
  rcases Nat.lt_trichotomy d s.dials.length with before | new | beyond
  · exact .inl (by rw [spawned,List.getElem?_append_left before])
  · refine .inr ⟨List.getElem?_eq_none new.ge,i,vp,started,?_⟩
    rw [spawned,new]
    simp
  · refine .inl ?_
    rw [List.getElem?_eq_none (by rw [spawned,List.length_append]; exact beyond),List.getElem?_eq_none beyond.le]

theorem Told.untouched (held : Told hasFeedback own d calls s)
    (constant : ∀ i,(next.dialing.scheduler i).hasFeedback = (s.dialing.scheduler i).hasFeedback)
    (scheduler : next.queue.scheduler = s.queue.scheduler) (dials : Untouched d s.dialing next.dialing)
    (sameTold : Feeding.told d next = Feeding.told d s) (sameAnswered : Feeding.answered d next = Feeding.answered d s) :
    Told hasFeedback own d calls next := by
  have kept : ∀ i,(next.dialing.scheduler i).hasFeedback = hasFeedback i := fun i => (constant i).trans (held.constant i)
  have attached := scheduler.trans held.scheduler
  rcases dials with same | ⟨none,i,vp,started,fresh⟩
  · refine ⟨kept,attached,held.once,fun none => ?_,fun dial found => ?_,fun dial found => ?_,fun dial found => ?_,fun dial found => ?_⟩
    · rw [none] at same
      rw [sameTold,sameAnswered]
      exact held.unspawned (Option.map_eq_none_iff.mp same.symm)
    · obtain ⟨earlier,before,_,_,flag⟩ := marked same found
      rw [← flag]
      exact held.done earlier before
    · obtain ⟨earlier,before,owner,flag,_⟩ := marked same found
      rw [← owner,← flag]
      exact held.reported earlier before
    · obtain ⟨earlier,before,owner,_⟩ := marked same found
      rw [← owner,sameTold]
      exact held.told earlier before
    · obtain ⟨earlier,before,owner,_⟩ := marked same found
      rw [← owner,sameTold,sameAnswered]
      exact held.answered earlier before
  · -- A dial just spawned has called nothing yet.
    obtain ⟨rfl,noneTold,noneAnswered⟩ := held.unspawned none
    refine ⟨kept,attached,held.once,fun missing => absurd (fresh.symm.trans missing) nofun,fun dial found => ?_,fun dial found => ?_,
      fun dial found => ?_,fun dial found => ?_⟩
    all_goals cases fresh.symm.trans found
    · simp
    · simp
    · simp [sameTold,noneTold,tells]
    · simp [sameAnswered,noneAnswered,sameTold,noneTold]

omit [DecidableEq ι] in
theorem Grows.kept {s next : Dialing ι} (grows : Grows s next) (found : s.dials[d]? = some dial) :
    next.dials[d]? = some dial := by
  rcases grows.spawns with same | ⟨i,vp,started,spawned⟩
  · rw [same,found]
  · rw [spawned,List.getElem?_append_left (List.getElem?_eq_some_iff.mp found).1,found]

theorem feedbackFn_grows (s : Feeding ι) (i : ι) (d : Nat) (feedback : EthPeerDisconnectFeedback) (clock : Readings) :
    Grows s.dialing (s.feedbackFn i d feedback clock).dialing ∧ (s.feedbackFn i d feedback clock).queue.scheduler = s.queue.scheduler ∧
    ∀ other,answered other (s.feedbackFn i d feedback clock) =
      answered other s + if s.queue.scheduler = some i ∧ d = other then 1 else 0 := by
  unfold feedbackFn
  split_ifs with attached
  · obtain ⟨grows,scheduler,answers⟩ := report_grows s (some d) feedback clock
    refine ⟨grows,scheduler,fun other => ?_⟩
    rw [answers]
    simp [attached]
  · exact ⟨.refl _,rfl,fun other => by simp [attached]⟩

-- What on_done or the disconnect handler of a dial does: it sets the dial's flags
-- and tells of its end, or not, and then leaves the rest to the queue.
structure Calls (s next : Feeding ι) (d : Nat) (dial : Dial ι) (reported done tells : Bool) : Prop where
  constant : ∀ i,(next.dialing.scheduler i).hasFeedback = (s.dialing.scheduler i).hasFeedback
  scheduler : next.queue.scheduler = s.queue.scheduler
  found : ∃ dial',next.dialing.dials[d]? = some dial' ∧ dial'.owner = dial.owner ∧ dial'.reported = reported ∧ dial'.done = done
  told : ∀ other,told other next = told other s + if tells = true ∧ d = other then 1 else 0
  answered : ∀ other,answered other next =
    answered other s + if tells = true ∧ s.queue.scheduler = some dial.owner ∧ d = other then 1 else 0
  others : ∀ other,other ≠ d → Untouched other s.dialing next.dialing

omit [DecidableEq ι] in
theorem told_log {feedback : EthPeerDisconnectFeedback} {tells : Bool} (log : next.dialing.feedback =
      if tells then s.dialing.feedback ++ [⟨d,feedback.reason,feedback.wasConnected⟩] else s.dialing.feedback) (other : Nat) :
    told other next = told other s + if tells = true ∧ d = other then 1 else 0 := by
  unfold told
  rw [log]
  cases tells with
  | false => simp
  | true => simp [List.countP_append,List.countP_singleton]

theorem calls_of {tells : Bool} (middle : Feeding ι)
    (changed : Dial ι) (found : s.dialing.dials[d]? = some dial) (owner : changed.owner = dial.owner)
    (dials : middle.dialing.dials = s.dialing.dials.set d changed) (log : middle.dialing.feedback =
      if tells then s.dialing.feedback ++ [⟨d,feedback.reason,feedback.wasConnected⟩] else s.dialing.feedback)
    (constant : ∀ i,(middle.dialing.scheduler i).hasFeedback = (s.dialing.scheduler i).hasFeedback) (queue : middle.queue = s.queue)
    (answers : middle.answers = s.answers) :
    Calls s (if tells then middle.feedbackFn dial.owner d feedback clock else middle) d dial changed.reported changed.done tells := by
  have inside := (List.getElem?_eq_some_iff.mp found).1
  have set : middle.dialing.dials[d]? = some changed := by rw [dials,List.getElem?_set_self inside]
  have toldMiddle := told_log log
  have answeredMiddle : ∀ other,answered other middle = answered other s := by
    intro other
    unfold answered
    rw [answers]
  have apart : ∀ other,other ≠ d → middle.dialing.dials[other]? = s.dialing.dials[other]? := by
    intro other separate
    rw [dials,List.getElem?_set_ne separate.symm]
  cases tells with
  | false =>
    refine ⟨constant,by rw [if_neg nofun,queue],⟨changed,set,owner,rfl,rfl⟩,toldMiddle,fun other => ?_,fun other separate => ?_⟩
    · simpa using answeredMiddle other
    · exact .inl (by rw [if_neg nofun,apart other separate])
  | true =>
    obtain ⟨grows,scheduler,heard⟩ := feedbackFn_grows middle dial.owner d feedback clock
    rw [if_pos rfl]
    refine ⟨fun i => (grows.hasFeedback i).trans (constant i),by rw [scheduler,queue],⟨changed,grows.kept set,owner,rfl,rfl⟩,
      fun other => ?_,fun other => ?_,fun other separate => ?_⟩
    · rw [← toldMiddle]
      unfold told
      rw [grows.feedback]
    · rw [heard,answeredMiddle,queue]
      simp
    · have untouched := grows.untouched other
      unfold Untouched at untouched
      rwa [apart other separate] at untouched

theorem report_feedback (s : Dialing ι) (d : Nat) (reason : DisconnectReason) : (s.report d dial reason).feedback =
      if (s.scheduler dial.owner).hasFeedback && !dial.reported then s.feedback ++ [⟨d,reason,dial.wasValidated⟩] else s.feedback := by
  unfold Dialing.report
  split <;> rfl

theorem onDone_calls (found : s.dialing.dials[d]? = some dial) (reason : DisconnectReason) (clock : Readings) :
    Calls s (s.onDone d reason clock) d dial
      (dial.reported || ((s.dialing.scheduler dial.owner).hasFeedback && !dial.reported)) true
      ((s.dialing.scheduler dial.owner).hasFeedback && !dial.reported) := by
  unfold onDone
  rw [found]
  exact calls_of { s with dialing := s.dialing.report d dial reason, releasing := dial.owner :: s.releasing }
    { dial with reported := dial.reported || ((s.dialing.scheduler dial.owner).hasFeedback && !dial.reported), done := true } found rfl
    (Dialing.report_dials ..) (report_feedback ..)
    (Dialing.report_same DialScheduler.hasFeedback (fun _ _ => rfl) s.dialing d dial reason) rfl rfl

theorem onDisconnect_calls (found : s.dialing.dials[d]? = some dial) (reason : DisconnectReason) (clock : Readings) :
    Calls s (s.onDisconnect d reason clock) d dial
      (dial.reported || (s.dialing.scheduler dial.owner).hasFeedback) dial.done (s.dialing.scheduler dial.owner).hasFeedback := by
  have same : s.dialing.dials.set d dial = s.dialing.dials := by
    obtain ⟨inside,rfl⟩ := List.getElem?_eq_some_iff.mp found
    exact List.set_getElem_self inside
  unfold onDisconnect
  rw [found]
  refine calls_of { s with dialing := s.dialing.onDisconnect d reason }
    { dial with reported := dial.reported || (s.dialing.scheduler dial.owner).hasFeedback } found rfl ?_ ?_ ?_ rfl rfl
  all_goals
    simp only [Dialing.onDisconnect,found]
    cases (s.dialing.scheduler dial.owner).hasFeedback <;> simp [same]

theorem Told.called {reported done tells : Bool} (held : Told hasFeedback own d calls s)
    (found : s.dialing.dials[d]? = some dial) (made : Calls s next d dial reported done tells)
    (once : (calls ++ [call]).count .done ≤ 1) (ended : done = true ↔ .done ∈ calls ++ [call])
    (flagged : hasFeedback dial.owner = true → reported = true)
    (more : hasFeedback dial.owner = true → Feeding.tells (calls ++ [call]) = Feeding.tells calls + if tells = true then 1 else 0)
    (mute : hasFeedback dial.owner = false → tells = false) : Told hasFeedback own d (calls ++ [call]) next := by
  obtain ⟨dial',after,owner,flag,final⟩ := made.found
  have only : ∀ other,next.dialing.dials[d]? = some other → other = dial' := fun other present => Option.some.inj (present.symm.trans after)
  refine ⟨fun i => (made.constant i).trans (held.constant i),made.scheduler.trans held.scheduler,once,
    fun missing => absurd (after.symm.trans missing) nofun,fun other present => ?_,fun other present installed => ?_,
    fun other present => ?_,fun other present => ?_⟩
  all_goals cases only other present
  · rw [final,ended]
  · rw [owner] at installed
    simp [flag,flagged installed]
  · rw [made.told,held.told dial found,owner]
    cases installed : hasFeedback dial.owner with
    | false => simp [mute installed]
    | true => simp [more installed]
  · rw [made.answered,made.told,held.answered dial found,owner,held.scheduler]
    by_cases attached : dial.owner = own
    · simp [attached]
    · simp [attached,Ne.symm attached]

theorem Told.aside {reported done tells : Bool} (held : Told hasFeedback own d calls s)
    (separate : d ≠ other) (made : Calls s next other dial reported done tells) : Told hasFeedback own d calls next := by
  refine held.untouched made.constant made.scheduler (made.others d separate) ?_ ?_
  · simp [made.told,Ne.symm separate]
  · simp [made.answered,Ne.symm separate]

theorem Told.done_called (held : Told hasFeedback own d calls s)
    (found : s.dialing.dials[d]? = some dial) (pending : dial.done = false) :
    Told hasFeedback own d (calls ++ [.done]) (s.onDone d reason clock) := by
  have first : .done ∉ calls := fun earlier => absurd ((held.done dial found).mpr earlier) (by simp [pending])
  have constant := held.constant dial.owner
  refine held.called found (onDone_calls found ..) ?_ (by simp) (fun installed => ?_) (fun installed => ?_) (fun missing => ?_)
  · simp [List.count_eq_zero.mpr first]
  · simp [constant,installed]
  · -- The flag was set by an earlier call, if there was any.
    have flag := held.reported dial found installed
    rw [tells_snoc_done,constant,installed]
    congr 1
    exact if_congr (by simp [← Bool.not_eq_true,flag]) rfl rfl
  · simp [constant,missing]

theorem Told.disconnect_called (held : Told hasFeedback own d calls s)
    (found : s.dialing.dials[d]? = some dial) : Told hasFeedback own d (calls ++ [.disconnect]) (s.onDisconnect d reason clock) := by
  have constant := held.constant dial.owner
  refine held.called found (onDisconnect_calls found ..) ?_ ?_ (fun installed => ?_) (fun installed => ?_) (fun missing => ?_)
  · simpa using held.once
  · simpa using held.done dial found
  · simp [constant,installed]
  · simp [tells_snoc_disconnect,constant,installed]
  · rw [constant,missing]

theorem Told.grows (held : Told hasFeedback own d calls s) (grows : Grows s.dialing next.dialing)
    (scheduler : next.queue.scheduler = s.queue.scheduler) (answered : Feeding.answered d next = Feeding.answered d s) :
    Told hasFeedback own d calls next :=
  held.untouched grows.hasFeedback scheduler (grows.untouched d) (by unfold Feeding.told; rw [grows.feedback]) answered

theorem noteOffer_told (held : Told hasFeedback own d calls s) (noted : ∃ stats,next = noteOffer peer clock
      ((s.enqueueCandidate peer false clock).1,(s.enqueueCandidate peer false clock).2.setStats stats)) :
    Told hasFeedback own d calls next := by
  obtain ⟨stats,rfl⟩ := noted
  obtain ⟨grows,scheduler,answers⟩ := (enqueueCandidate_offered s peer false clock).grows
  refine held.grows grows scheduler ?_
  unfold Feeding.answered noteOffer setStats
  simp [answers]

theorem onConnected_keeps (s : Dialing ι) (d other : Nat) :
    Untouched d s (s.onConnected other) ∧ (s.onConnected other).feedback = s.feedback ∧
    ∀ i,((s.onConnected other).scheduler i).hasFeedback = (s.scheduler i).hasFeedback := by
  unfold Dialing.onConnected Untouched
  split
  · exact ⟨.inl rfl,rfl,fun _ => rfl⟩
  rename_i dial found
  refine ⟨.inl ?_,rfl,Dialing.put_same DialScheduler.hasFeedback (by rfl)⟩
  by_cases same : other = d
  · subst same
    have inside := (List.getElem?_eq_some_iff.mp found).1
    simp [Dialing.put,List.getElem?_set_self inside,found,marks]
  · simp [Dialing.put,List.getElem?_set_ne same]

theorem Told.quiet (held : Told hasFeedback own d calls s) : Told hasFeedback own d (calls ++ []) s := by
  rwa [List.append_nil]

theorem apply_told (held : Told hasFeedback own d calls s) (action : Action ι) (allowed : s.Allowed action) :
    Told hasFeedback own d (calls ++ (action.callback d).toList) (s.apply action) := by
  cases action with
  | cached peer clock => exact (noteOffer_told held (noteOffer_preload ..)).quiet
  | reported feedback clock =>
    obtain ⟨grows,scheduler,answers⟩ := report_grows s none feedback clock
    exact (held.grows grows scheduler (by simp [answers])).quiet
  | done other reason clock =>
    obtain ⟨dial,found,pending⟩ := allowed
    unfold apply Action.callback
    by_cases same : other = d
    · subst same
      simpa using held.done_called found pending
    · simpa [same] using held.aside (Ne.symm same) (onDone_calls found ..)
  | release i expired => exact Told.quiet (held.grows (release_grows ..) rfl rfl)
  | connected other =>
    obtain ⟨untouched,feedback,constant⟩ := onConnected_keeps s.dialing d other
    refine Told.quiet (held.untouched constant rfl untouched ?_ rfl)
    exact congrArg (List.countP fun feedback => feedback.dial = d) feedback
  | disconnect other reason clock =>
    obtain ⟨dial,found,_⟩ := allowed
    unfold apply Action.callback
    by_cases same : other = d
    · subst same
      simpa using held.disconnect_called found
    · simpa [same] using held.aside (Ne.symm same) (onDisconnect_calls found ..)
  | drain asked added => exact Told.quiet (held.grows (drain_grows ..) rfl rfl)
  | stop i => exact Told.quiet (held.grows ⟨.inl rfl,rfl,Dialing.put_same DialScheduler.hasFeedback (by rfl)⟩ rfl rfl)
  | enqueue i vp expired asked added => exact Told.quiet (held.grows (enqueue_grows ..) rfl rfl)
  | _ => exact (noteOffer_told held (noteOffer_countDiscovered ..)).quiet

theorem run_told {dialing : Dialing ι} (unspawned : dialing.dials[d]? = none)
    (silent : ∀ feedback ∈ dialing.feedback,feedback.dial ≠ d) (taken : (machine ι).Sequence (new dialing own config) actions s) :
    Told (fun i => ((new dialing own config).dialing.scheduler i).hasFeedback) own d (callbacks d actions) s := by
  refine taken.history (fun actions s =>
    Told (fun i => ((new dialing own config).dialing.scheduler i).hasFeedback) own d (callbacks d actions) s) ?_ ?_
  · have missing : ∀ dial,(new dialing own config).dialing.dials[d]? ≠ some dial := by
      intro dial found
      exact absurd (unspawned.symm.trans found) nofun
    refine ⟨fun _ => rfl,rfl,by simp [callbacks],fun _ => ⟨rfl,?_,rfl⟩,?_,?_,?_,?_⟩
    · exact List.countP_eq_zero.mpr fun feedback logged => by simpa using silent feedback logged
    all_goals exact fun dial found => absurd found (missing dial)
  · intro actions s action allowed held
    rw [callbacks_snoc]
    exact apply_told held action allowed

def tally (s : Feeding ι) : BitVec 64 × BitVec 64 := (s.queue.stats.disconnectFeedbackCount,s.queue.stats.requeuedPeerCount)

def entries (answers : List Answer) : BitVec 64 × BitVec 64 :=
  (.ofNat 64 (answers.countP fun answer => answer.reason.isSome),
    .ofNat 64 (answers.countP fun answer => answer.reason.isSome && answer.accepted))

def Booked (s next : Feeding ι) : Prop := ∃ answers,next.answers = s.answers ++ answers ∧ tally next = tally s + entries answers

theorem entries_append : entries (first ++ second) = entries first + entries second := by
  simp [entries,List.countP_append,BitVec.ofNat_add]

omit [DecidableEq ι] in
theorem Booked.idle (queue : next.queue = s.queue) (answers : next.answers = s.answers) : Booked s next := by
  refine ⟨[],by rw [answers,List.append_nil],?_⟩
  unfold tally
  rw [queue]
  simp [entries]

theorem enqueueCandidate_books (s : Feeding ι) (peer : ValidatedPeer) (allowKnownPeer : Bool) (clock : Readings) :
    tally (s.enqueueCandidate peer allowKnownPeer clock).2 = tally s ∧
    (s.enqueueCandidate peer allowKnownPeer clock).2.answers = s.answers := by
  unfold enqueueCandidate
  dsimp only
  split
  · exact ⟨rfl,rfl⟩
  split
  · exact ⟨rfl,rfl⟩
  split
  · exact ⟨rfl,rfl⟩
  · split
    · rw [unseen_again]
      exact ⟨rfl,rfl⟩
    · exact ⟨rfl,rfl⟩

omit [DecidableEq ι] in
theorem countDiscovered_books :
    tally (countDiscovered result).2 = tally result.2 ∧ (countDiscovered result).2.answers = result.2.answers := by
  obtain ⟨accepted,next⟩ := result
  cases accepted <;> exact ⟨rfl,rfl⟩

theorem preloadCachedPeer_books (peer : ValidatedPeer) :
    tally (s.preloadCachedPeer peer clock).2 = tally s ∧ (s.preloadCachedPeer peer clock).2.answers = s.answers := by
  have books := enqueueCandidate_books s peer false clock
  unfold preloadCachedPeer
  generalize s.enqueueCandidate peer false clock = result at books
  obtain ⟨accepted,next⟩ := result
  cases accepted <;> exact books

omit [DecidableEq ι] in
theorem Booked.offer
    (books : tally result.2 = tally s ∧ result.2.answers = s.answers) : Booked s (noteOffer peer clock result) := by
  refine ⟨[⟨none,peer,none,clock.now,result.1⟩],by rw [← books.2]; rfl,?_⟩
  rw [← books.1]
  simp [entries,noteOffer,tally]

omit [DecidableEq ι] in
theorem countDisconnect_books (feedback : EthPeerDisconnectFeedback) (s : Feeding ι) :
    tally (s.setStats (countDisconnect feedback s.queue.stats)) = tally s + (1,0) := by
  obtain ⟨peer,reason,wasConnected⟩ := feedback
  cases wasConnected <;> cases reason <;> simp [tally,setStats,countDisconnect]

theorem reportPeerDisconnected_books (s : Feeding ι) (feedback : EthPeerDisconnectFeedback) (clock : Readings) :
    tally (s.reportPeerDisconnected feedback clock).2 =
      tally s + (1,if (s.reportPeerDisconnected feedback clock).1 then 1 else 0) ∧
    (s.reportPeerDisconnected feedback clock).2.answers = s.answers := by
  have counted := countDisconnect_books feedback s
  unfold reportPeerDisconnected
  dsimp only
  split
  · exact ⟨counted,rfl⟩
  split
  · exact ⟨counted,rfl⟩
  split
  · exact ⟨counted,rfl⟩
  have books := enqueueCandidate_books ((s.setStats (countDisconnect feedback s.queue.stats)).countRequeue feedback.peer)
    feedback.peer true clock
  split
  · rename_i next refused
    rw [refused] at books
    exact ⟨books.1.trans counted,books.2⟩
  rename_i next accepted
  rw [accepted] at books
  have raised : tally (next.setStats { next.queue.stats with requeuedPeerCount := next.queue.stats.requeuedPeerCount + 1 }) =
      tally next + (0,1) := by simp [tally,setStats]
  refine ⟨?_,books.2⟩
  calc
    _ = tally next + (0,1) := raised
    _ = tally s + (1,0) + (0,1) := congrArg (· + (0,1)) (books.1.trans counted)
    _ = tally s + (1,1) := by rw [add_assoc]; rfl

theorem report_books (s : Feeding ι) (dial : Option Nat) (feedback : EthPeerDisconnectFeedback) (clock : Readings) :
    Booked s (s.report dial feedback clock) := by
  obtain ⟨counted,answers⟩ := reportPeerDisconnected_books s feedback clock
  refine ⟨[⟨dial,feedback.peer,some feedback.reason,clock.now,(s.reportPeerDisconnected feedback clock).1⟩],by rw [← answers]; rfl,?_⟩
  refine Eq.trans ?_ (counted.trans ?_)
  · rfl
  · cases (s.reportPeerDisconnected feedback clock).1 <;> simp [entries]

theorem Notifies.books (notifies : Notifies s next d clock) : Booked s next := by
  obtain ⟨middle,queue,answers,rfl | ⟨i,feedback,rfl⟩⟩ := notifies
  · exact .idle queue answers
  · unfold feedbackFn
    split
    · obtain ⟨fresh,noted,counted⟩ := report_books middle (some d) feedback clock
      refine ⟨fresh,by rw [noted,answers],?_⟩
      unfold tally at counted ⊢
      rw [counted,queue]
    · exact .idle queue answers

theorem apply_books (s : Feeding ι) (action : Action ι) : Booked s (s.apply action) := by
  cases action with
  | discovered peer clock =>
    obtain ⟨tally,answers⟩ := enqueueCandidate_books s (discoveredCandidate peer) false clock
    obtain ⟨counted,kept⟩ := countDiscovered_books ..
    exact .offer ⟨counted.trans tally,kept.trans answers⟩
  | validated peer clock =>
    obtain ⟨tally,answers⟩ := enqueueCandidate_books s (validatedCandidate peer) false clock
    obtain ⟨counted,kept⟩ := countDiscovered_books ..
    exact .offer ⟨counted.trans tally,kept.trans answers⟩
  | cached peer clock => exact .offer (preloadCachedPeer_books ..)
  | reported feedback clock => exact report_books ..
  | done d reason clock => exact (onDone_notifies ..).books
  | disconnect d reason clock => exact (onDisconnect_notifies ..).books
  | _ => exact .idle rfl rfl

theorem run_books {dialing : Dialing ι}
    (taken : (machine ι).Sequence (new dialing own config) actions s) : tally s = entries s.answers := by
  refine taken.keeps (fun s => tally s = entries s.answers) rfl fun s action _ held => ?_
  obtain ⟨answers,noted,counted⟩ := apply_books s action
  exact counted.trans (by rw [held,← entries_append,← noted]; rfl)

-- The disconnect handler never looks at the flag it sets: the end of a dial is
-- reported once exactly if no Disconnect follows another call of its callbacks.
theorem one_feedback_iff (dialing : Dialing ι) (own : ι) (config : EthPeerQueueConfig) (d : Nat) (unspawned : dialing.dials[d]? = none)
    (silent : ∀ feedback ∈ dialing.feedback,feedback.dial ≠ d) (actions : List (Action ι)) (s : Feeding ι)
    (taken : (machine ι).Sequence (new dialing own config) actions s) (dial : Dial ι) (found : s.dialing.dials[d]? = some dial) :
    ((s.dialing.scheduler dial.owner).hasFeedback = true →
      (told d s ≤ 1 ↔ callbacks d actions ∈ [[],[.done],[.disconnect],[.disconnect,.done]])) ∧
    ((s.dialing.scheduler dial.owner).hasFeedback = false → told d s = 0) ∧
    (answered d s = if dial.owner = own then told d s else 0) ∧ tally s = entries s.answers := by
  have held := run_told unspawned silent taken
  have log := held.told dial found
  rw [held.constant]
  refine ⟨fun installed => ?_,fun missing => ?_,held.answered dial found,run_books taken⟩
  · rw [log,if_pos installed]
    exact tells_le_one_iff held.once
  · rw [log,missing]
    rfl

def singleDialer : Dialing Unit := .new 1 1 fun _ => .new false none

def watchConfig : EthPeerQueueConfig := ⟨1024,3,1800000000000⟩

def later : Readings := ⟨36000000000,36000000000,36000000000,36000000000⟩

def closedOnce : List (Action Unit) :=
  [.discovered (namedPeer 1 none) noon,.connected 0,.disconnect 0 .kTimeout later,.done 0 .kTcpError later]

def closedTwice : List (Action Unit) :=
  [.discovered (namedPeer 1 none) noon,.connected 0,.disconnect 0 .kTimeout later,.disconnect 0 .kTimeout later]

def outcome (actions : List (Action Unit)) : Feeding Unit := actions.foldl (machine Unit).apply (new singleDialer () watchConfig)

theorem closed_once_told : told 0 (outcome closedOnce) = 1 := by
  cases found : (outcome closedOnce).dialing.dials[0]? with
  | none => exact absurd found (by decide +kernel)
  | some dial =>
    have told := one_feedback_iff singleDialer () watchConfig 0 rfl nofun closedOnce (outcome closedOnce)
      (Machine.sequence_of_check (by decide +kernel)) dial found
    have installed : ((outcome closedOnce).dialing.scheduler ()).hasFeedback = true := by decide +kernel
    exact Nat.le_antisymm ((told.1 installed).mpr (by decide +kernel)) (by decide +kernel)

theorem closed_twice_told : (machine Unit).Sequence (new singleDialer () watchConfig) closedTwice (outcome closedTwice) ∧
    told 0 (outcome closedTwice) = 2 ∧ (outcome closedTwice).queue.stats.disconnectFeedbackCount = 2 ∧
    (outcome closedTwice).queue.stats.requeuedPeerCount = 2 ∧
    ((outcome closedTwice).dialing.scheduler ()).queue.map (fun vp => vp.peer.nodeId) = [.ofNat 64 1,.ofNat 64 1] :=
  ⟨Machine.sequence_of_check (by decide +kernel),by decide +kernel⟩

end Feeding
end EvmRelay.Eth
