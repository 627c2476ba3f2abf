import EvmRelay.DialCaps

namespace EvmRelay.Discv4

-- What a run of the default dial function gets from the calls it makes. A
-- failed connect may have been told a reason by the peer before Hello.
structure DialResults where
  keypair : Bool
  connect : Except (Option DisconnectReason) Unit
  handshake : Bool

inductive DialCall where
  | onDone (reason : DisconnectReason)
  | disconnect (reason : DisconnectReason)
  | onConnected
  deriving DecidableEq

-- make_default_dial_fn. There is no suspension point between these calls and
-- the return of the coroutine.
def defaultDialFn (results : DialResults) : List DialCall :=
  if !results.keypair then [.onDone .kProtocolError]
  else
    match results.connect with
    | .error told => [.onDone (told.getD .kTcpError)]
    | .ok () =>
      if !results.handshake then [.disconnect .kSubprotocolError,.onDone .kSubprotocolError]
      else [.onConnected]

def DialResults.accepted (results : DialResults) : Bool :=
  results.keypair && results.connect.toBool && results.handshake

-- The schedulers with the default dial function behind them: what each dial
-- that has returned met, and the sessions that are over.
structure Attempts (ι : Type u) where
  dialing : Dialing ι
  results : Nat → Option DialResults
  ended : List Nat

namespace Attempts

variable [DecidableEq ι]

def call (d : Nat) (expired : TimePoint) (s : Attempts ι) : DialCall → Attempts ι
  | .onDone reason => { s with dialing := s.dialing.onDone d reason expired }
  | .disconnect _ => { s with ended := s.ended ++ [d] }
  | .onConnected => { s with dialing := s.dialing.onConnected d }

inductive Action (ι : Type u) where
  | scheduling (action : Dialing.Action ι)
  | dialed (d : Nat) (results : DialResults) (expired : TimePoint)
  | sessionEnded (d : Nat)

-- on_done and on_connected are called by the dial function only.
def OutsideDial : Dialing.Action ι → Prop
  | .done .. => False
  | .connected _ => False
  | _ => True

def Allowed (s : Attempts ι) : Action ι → Prop
  | .scheduling action => s.dialing.Allowed action ∧ OutsideDial action
  | .dialed d _ _ => d < s.dialing.dials.length ∧ s.results d = none
  | .sessionEnded d => ∃ dial,s.dialing.dials[d]? = some dial ∧ dial.wasValidated = true

def apply (s : Attempts ι) : Action ι → Attempts ι
  | .scheduling action => { s with dialing := s.dialing.apply action }
  | .dialed d results expired =>
    let s := (defaultDialFn results).foldl (call d expired) s
    { s with results := Function.update s.results d (some results) }
  | .sessionEnded d => { s with ended := s.ended ++ [d] }

def machine (ι : Type u) [DecidableEq ι] : Machine (Attempts ι) (Action ι) := ⟨Allowed,apply⟩

def fresh (maxTotal maxPerChain : Int) (hasFeedback : ι → Bool) (filterFn : ι → Option (DiscoveredPeer → Bool)) :
    Attempts ι :=
  ⟨.fresh maxTotal maxPerChain hasFeedback filterFn,fun _ => none,[]⟩

def Idle (s : Attempts ι) : Prop :=
  (∀ d < s.dialing.dials.length,s.results d ≠ none) ∧
    ∀ d dial,s.dialing.dials[d]? = some dial → dial.wasValidated = true → d ∈ s.ended ∨ d ∈ s.dialing.disconnected

def SlotsReturned (s : Attempts ι) : Prop :=
  (∀ dial ∈ s.dialing.dials,dial.done = true) ∧ (∀ i,(s.dialing.scheduler i).active = 0) ∧
    s.dialing.pool.activeTotal = 0

variable {s : Attempts ι}

def standing : Option DialResults → Bool × Bool
  | none => (false,false)
  | some results => (results.accepted,!results.accepted)

def Known (dials : List (Dial ι)) (results : Nat → Option DialResults) : Prop :=
  (∀ d dial,dials[d]? = some dial → (dial.wasValidated,dial.done) = standing (results d)) ∧
    ∀ d,results d ≠ none → d < dials.length

omit [DecidableEq ι] in
theorem Known.append (known : Known dials met) (i : ι) (vp : ValidatedPeer) (started : TimePoint) :
    Known (dials ++ [⟨i,vp,started,false,false,false⟩]) met := by
  obtain ⟨flags,bound⟩ := known
  refine ⟨?_,?_⟩
  · intro d dial found
    by_cases inside : d < dials.length
    · rw [List.getElem?_append_left inside] at found
      exact flags d dial found
    have untold : met d = none := by
      by_contra told
      exact inside (bound d told)
    rw [List.getElem?_append_right (Nat.le_of_not_lt inside),List.getElem?_singleton] at found
    split at found
    · cases found
      rw [untold]
      rfl
    · cases found
  · intro d told
    rw [List.length_append]
    exact Nat.lt_add_right _ (bound d told)

omit [DecidableEq ι] in
theorem Known.set (known : Known dials met) (found : dials[d]? = some dial) (others : ∀ e,e ≠ d → told e = met e)
    (flags : (changed.wasValidated,changed.done) = standing (told d)) : Known (dials.set d changed) told := by
  have inside := (List.getElem?_eq_some_iff.mp found).1
  refine ⟨?_,?_⟩
  · intro e other there
    by_cases equal : e = d
    · subst equal
      rw [List.getElem?_set_self inside] at there
      cases there
      exact flags
    · rw [List.getElem?_set_ne (Ne.symm equal)] at there
      rw [others e equal]
      exact known.1 e other there
  · intro e known_
    rw [List.length_set]
    by_cases equal : e = d
    · exact equal ▸ inside
    · exact known.2 e (others e equal ▸ known_)

omit [DecidableEq ι] in
theorem Known.spawns {before after : Dialing ι} (known : Known before.dials met) (spawns : before.Spawns after) :
    Known after.dials met := by
  rcases spawns with same | ⟨i,vp,started,added⟩
  · exact same.symm ▸ known
  · exact added.symm ▸ known.append i vp started

theorem scheduling_known (known : Known s.dialing.dials s.results) (allowed : s.Allowed (.scheduling action)) :
    Known (s.dialing.apply action).dials s.results := by
  obtain ⟨allowed,outside⟩ := allowed
  cases action with
  | enqueue i vp expired asked added => exact known.spawns (Dialing.enqueue_spawns ..)
  | stop i => exact known
  | done d reason expired => exact outside.elim
  | connected d => exact outside.elim
  | disconnect d reason =>
    obtain ⟨dial,found,_⟩ := allowed
    simp only [Dialing.apply,Dialing.onDisconnect,found]
    split
    · exact known.set found (fun _ _ => rfl) (known.1 d dial found)
    · exact known
  | drain asked added => exact known.spawns (Dialing.drain_spawns ..)

theorem defaultDialFn_cases (results : DialResults) : (results.accepted = true ∧ defaultDialFn results = [.onConnected]) ∨
    (results.accepted = false ∧ ∃ reason,defaultDialFn results = [.onDone reason]) ∨
    (results.accepted = false ∧ ∃ why reason,defaultDialFn results = [.disconnect why,.onDone reason]) := by
  obtain ⟨keypair,connect,handshake⟩ := results
  cases keypair with
  | false => exact .inr (.inl ⟨rfl,_,rfl⟩)
  | true =>
    cases connect with
    | error told => exact .inr (.inl ⟨rfl,_,rfl⟩)
    | ok _ =>
      cases handshake with
      | false => exact .inr (.inr ⟨rfl,_,_,rfl⟩)
      | true => exact .inl ⟨rfl,rfl⟩

theorem dialed_exact (s : Attempts ι) (d : Nat) (results : DialResults) (expired : TimePoint) :
    ∃ action,(s.apply (.dialed d results expired)).dialing = s.dialing.apply action ∧
      (s.apply (.dialed d results expired)).results = Function.update s.results d (some results) ∧
      (results.accepted = true ∧ action = .connected d ∨
        results.accepted = false ∧ ∃ reason,action = .done d reason expired) := by
  rcases defaultDialFn_cases .. with ⟨accepted,calls⟩ | ⟨refused,reason,calls⟩ | ⟨refused,why,reason,calls⟩
  · exact ⟨.connected d,by simp [apply,calls,call,Dialing.apply],by simp [apply,calls,call],.inl ⟨accepted,rfl⟩⟩
  · exact ⟨.done d reason expired,by simp [apply,calls,call,Dialing.apply],by simp [apply,calls,call],
      .inr ⟨refused,reason,rfl⟩⟩
  · exact ⟨.done d reason expired,by simp [apply,calls,call,Dialing.apply],by simp [apply,calls,call],
      .inr ⟨refused,reason,rfl⟩⟩

structure Follows (start : Dialing ι) (s : Attempts ι) : Prop where
  known : Known s.dialing.dials s.results
  path : ∃ actions,(Dialing.machine ι).Sequence start actions s.dialing

theorem Follows.dialed (follows : Follows start s) (inside : d < s.dialing.dials.length) (open_ : s.results d = none)
    (results : DialResults) (expired : TimePoint) : Follows start (s.apply (.dialed d results expired)) := by
  obtain ⟨known,past,path⟩ := follows
  have found := List.getElem?_eq_getElem inside
  have flags := known.1 d _ found
  rw [open_,standing,Prod.mk.injEq] at flags
  have recorded : ∀ e,e ≠ d → Function.update s.results d (some results) e = s.results e :=
    fun e other => Function.update_of_ne other _ _
  obtain ⟨action,after,told,taken⟩ := dialed_exact s d results expired
  have allowed : (Dialing.machine ι).Allowed s.dialing action := by
    rcases taken with ⟨_,rfl⟩ | ⟨_,reason,rfl⟩
    · exact ⟨_,found⟩
    · exact ⟨_,found,flags.2⟩
  refine ⟨?_,past ++ [action],after ▸ path.append (.single allowed)⟩
  rw [after,told]
  rcases taken with ⟨accepted,rfl⟩ | ⟨refused,reason,rfl⟩
  · simp only [Dialing.apply,Dialing.onConnected,found]
    exact known.set found recorded (by simp [standing,accepted,flags.2])
  · simp only [Dialing.apply,Dialing.onDone,found]
    rw [Dialing.release_dials,Dialing.report_dials]
    exact known.set found recorded (by simp [standing,refused,flags.1])

theorem follows_step (allowed : s.Allowed action) (follows : Follows start s) : Follows start (s.apply action) := by
  cases action with
  | scheduling action =>
    obtain ⟨past,path⟩ := follows.path
    exact ⟨scheduling_known follows.known allowed,_,path.append (.single allowed.1)⟩
  | dialed d results expired => exact follows.dialed allowed.1 allowed.2 results expired
  | sessionEnded d => exact ⟨follows.known,follows.path⟩

theorem follows_reached (path : (machine ι).Sequence (fresh maxTotal maxPerChain hasFeedback filterFn) actions s) :
    Follows (Dialing.fresh maxTotal maxPerChain hasFeedback filterFn) s := by
  refine path.keeps (Follows _) ⟨⟨?_,?_⟩,[],.nil⟩ (fun _ _ => follows_step)
  · intro d dial found
    simp [fresh,Dialing.fresh,Dialing.new] at found
  · intro d told
    exact absurd rfl told

theorem results_exact (path : (machine ι).Sequence (fresh maxTotal maxPerChain hasFeedback filterFn) actions s)
    (d : Nat) (results : DialResults) : s.results d = some results ↔ ∃ expired,.dialed d results expired ∈ actions := by
  refine path.history (fun past s => s.results d = some results ↔ ∃ expired,.dialed d results expired ∈ past) ?_ ?_
  · simp [fresh]
  · intro past s action allowed same
    cases action with
    | dialed e met expired =>
      obtain ⟨_,_,told,_⟩ := dialed_exact s e met expired
      change (s.apply (.dialed e met expired)).results d = _ ↔ _
      rw [told]
      by_cases equal : d = e
      · subst equal
        have untold : ¬ ∃ expired,.dialed d results expired ∈ past := by
          rw [← same,allowed.2]
          simp
        simp only [Function.update_self,List.mem_append,List.mem_singleton]
        constructor
        · intro now
          cases now
          exact ⟨expired,.inr rfl⟩
        · rintro ⟨when_,earlier | now⟩
          · exact absurd ⟨when_,earlier⟩ untold
          · cases now
            rfl
      · simp [same,equal]
    | _ => simpa [machine,apply] using same

variable [Fintype ι]

theorem slots_free (follows : Follows (Dialing.fresh maxTotal maxPerChain hasFeedback filterFn) s)
    (done : ∀ dial ∈ s.dialing.dials,dial.done = true) : s.SlotsReturned := by
  obtain ⟨past,path⟩ := follows.path
  obtain ⟨_,slots,_,held⟩ := Dialing.held_reached path (Dialing.held_at_start ..)
  have free : ∀ i,slots.held i = 0 := by
    intro i
    rw [← held.running,Dialing.running,List.countP_eq_zero]
    intro dial member
    simp [done dial member]
  refine ⟨done,?_,?_⟩
  · intro i
    rw [held.active,free]
    rfl
  · simp [held.activeTotal,SlotPool.total,free]

theorem slots_returned_iff (maxTotal maxPerChain : Int) (hasFeedback : ι → Bool)
    (filterFn : ι → Option (DiscoveredPeer → Bool))
    (path : (machine ι).Sequence (fresh maxTotal maxPerChain hasFeedback filterFn) actions s) (idle : s.Idle) :
    s.SlotsReturned ↔ ∀ d results expired,.dialed d results expired ∈ actions → results.accepted = false := by
  have follows := follows_reached path
  obtain ⟨flags,bound⟩ := follows.known
  constructor
  · intro returned d results expired member
    have met := (results_exact path d results).mpr ⟨expired,member⟩
    have inside : d < s.dialing.dials.length := bound d (by simp [met])
    have standing_ := flags d _ (List.getElem?_eq_getElem inside)
    rw [met,standing,Prod.mk.injEq,returned.1 _ (List.getElem_mem inside)] at standing_
    simpa using standing_.2.symm
  · intro refused
    refine slots_free follows ?_
    intro dial member
    obtain ⟨d,inside,rfl⟩ := List.getElem_of_mem member
    obtain ⟨results,met⟩ := Option.ne_none_iff_exists'.mp (idle.1 d inside)
    obtain ⟨expired,dialed⟩ := (results_exact path d results).mp met
    have standing_ := flags d _ (List.getElem?_eq_getElem inside)
    rw [met,standing,Prod.mk.injEq,refused d results expired dialed] at standing_
    exact standing_.2

def oneChain : Attempts Unit := fresh 3 3 (fun _ => false) (fun _ => none)

def refusedDial : List (Action Unit) :=
  [.scheduling (.enqueue () Dialing.anyPeer 0 0 0),.dialed 0 ⟨true,.error none,true⟩ 1,.scheduling (.drain 1 1)]

theorem refusedDial_taken : (machine Unit).Sequence oneChain refusedDial (refusedDial.foldl apply oneChain) :=
  .cons ⟨trivial,trivial⟩ (.cons ⟨Nat.zero_lt_one,rfl⟩ (.cons ⟨List.cons_ne_nil () [],trivial⟩ .nil))

theorem refusedDial_idle : (refusedDial.foldl apply oneChain).Idle := by
  refine ⟨?_,?_⟩
  · intro d inside
    obtain rfl := Nat.lt_one_iff.mp inside
    exact Option.some_ne_none _
  · intro d dial found validated
    obtain rfl := Nat.lt_one_iff.mp (List.getElem?_eq_some_iff.mp found).1
    cases found
    cases validated

theorem refusedDial_returns : (refusedDial.foldl apply oneChain).SlotsReturned ↔
    ∀ d results expired,.dialed d results expired ∈ refusedDial → results.accepted = false :=
  slots_returned_iff 3 3 (fun _ => false) (fun _ => none) refusedDial_taken refusedDial_idle

def endedSession : List (Action Unit) :=
  [.scheduling (.enqueue () Dialing.anyPeer 0 0 0),.dialed 0 ⟨true,.ok (),true⟩ 1,.sessionEnded 0]

theorem endedSession_holds : ∃ s,(machine Unit).Sequence oneChain endedSession s ∧ s.Idle ∧ s.dialing.draining = [] ∧
    (s.dialing.scheduler ()).active = 1 ∧ s.dialing.pool.activeTotal = 1 ∧ ¬ s.SlotsReturned := by
  refine ⟨endedSession.foldl apply oneChain,?_,⟨?_,?_⟩,rfl,rfl,rfl,?_⟩
  · exact .cons ⟨trivial,trivial⟩ (.cons ⟨Nat.zero_lt_one,rfl⟩ (.cons ⟨_,rfl,rfl⟩ .nil))
  · intro d inside
    obtain rfl := Nat.lt_one_iff.mp inside
    exact Option.some_ne_none _
  · intro d dial found _
    obtain rfl := Nat.lt_one_iff.mp (List.getElem?_eq_some_iff.mp found).1
    exact .inl (List.mem_singleton.mpr rfl)
  · intro returned
    exact absurd returned.2.2 (by decide)

end Attempts
end EvmRelay.Discv4
