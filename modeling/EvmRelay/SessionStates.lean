import EvmRelay.Machine

namespace EvmRelay.Rlpx

inductive SessionState where
  | kUninitialized | kConnecting | kAuthenticating | kHandshaking | kActive | kDisconnecting | kClosed | kError
  deriving DecidableEq

def isTerminalState (state : SessionState) : Bool := state = .kClosed || state = .kError

def isLeavingState (state : SessionState) : Bool := state = .kDisconnecting || state = .kClosed || state = .kError

-- A call of disconnect, at the access of state_ that it makes next; at last it
-- closes the stream.
inductive DisconnectCall where
  | load
  | exchange (expected : SessionState)
  | store
  | close
  | returned
  deriving DecidableEq

-- run_send_loop and run_receive_loop look at state_ in the same places: they read
-- it in front of every round and write it when the round's transfer has failed.
inductive IoLoop where
  | check
  | transfer
  | forceErrorState
  | returned
  deriving DecidableEq

-- compare_exchange_weak may fail without reason.
def DisconnectCall.step (state : SessionState) (spurious : Bool) : DisconnectCall → SessionState × DisconnectCall
  | .load => (state,if isLeavingState state then .returned else .exchange state)
  | .exchange expected =>
    if state = expected ∧ spurious = false then (.kDisconnecting,.store)
    else (state,if isLeavingState state then .returned else .exchange state)
  | .store => (.kClosed,.close)
  | .close => (state,.returned)
  | .returned => (state,.returned)

def IoLoop.step (state : SessionState) (failed : Bool) : IoLoop → SessionState × IoLoop
  | .check => (state,if state = .kActive then .transfer else .returned)
  | .transfer => (state,if failed then .forceErrorState else .check)
  | .forceErrorState => (.kError,.returned)
  | .returned => (state,.returned)

structure SessionActors where
  state : SessionState
  calls : List DisconnectCall
  sendLoop : IoLoop
  receiveLoop : IoLoop
  deriving DecidableEq

namespace SessionActors

-- connect stores kActive and then spawns the loops.
def connected : SessionActors := ⟨.kActive,[],.check,.check⟩

inductive Direction where
  | send | receive
  deriving DecidableEq

def loop (s : SessionActors) : Direction → IoLoop
  | .send => s.sendLoop
  | .receive => s.receiveLoop

def setLoop (s : SessionActors) (loop : IoLoop) : Direction → SessionActors
  | .send => { s with sendLoop := loop }
  | .receive => { s with receiveLoop := loop }

inductive Action where
  | disconnect
  | call (index : Nat) (spurious : Bool)
  | io (direction : Direction) (failed : Bool)
  deriving DecidableEq

def Allowed (s : SessionActors) : Action → Prop
  | .disconnect => True
  | .call index _ => index < s.calls.length
  | .io direction _ => s.loop direction ≠ .returned

instance (s : SessionActors) : (action : Action) → Decidable (s.Allowed action)
  | .disconnect => inferInstanceAs (Decidable True)
  | .call index _ => inferInstanceAs (Decidable (index < s.calls.length))
  | .io direction _ => inferInstanceAs (Decidable (s.loop direction ≠ .returned))

def apply (s : SessionActors) : Action → SessionActors
  | .disconnect => { s with calls := s.calls ++ [.load] }
  | .call index spurious =>
    match s.calls[index]? with
    | none => s
    | some call =>
      let (state,call) := call.step s.state spurious
      { s with state := state,calls := s.calls.set index call }
  | .io direction failed =>
    let (state,loop) := (s.loop direction).step s.state failed
    { s with state := state }.setLoop loop direction

def machine : Machine SessionActors Action := ⟨Allowed,apply⟩

instance (s : SessionActors) (action : Action) : Decidable (machine.Allowed s action) :=
  inferInstanceAs (Decidable (s.Allowed action))

end SessionActors

def IoLoop.Pending (loop : IoLoop) : Prop := loop = .transfer ∨ loop = .forceErrorState

section steps
variable {call : DisconnectCall} {loop : IoLoop}

def DisconnectCall.Sound : DisconnectCall → Prop
  | .exchange expected => isLeavingState expected = false
  | _ => True

theorem DisconnectCall.retry_sound : DisconnectCall.Sound (if isLeavingState state then .returned else .exchange state) := by
  split_ifs with staying
  · trivial
  · exact Bool.eq_false_iff.mpr staying

theorem DisconnectCall.step_sound : (call.step state flag).2.Sound := by
  cases call with
  | load => exact retry_sound
  | exchange expected =>
    rw [DisconnectCall.step]
    split
    · trivial
    · exact retry_sound
  | store | close | returned => trivial

theorem terminal_iff : isTerminalState state = true ↔ state = .kClosed ∨ state = .kError := by
  simp [isTerminalState]

theorem leaving_of_terminal (terminal : isTerminalState state = true) : isLeavingState state = true := by
  revert terminal
  cases state <;> decide

theorem DisconnectCall.step_terminal (sound : call.Sound) (terminal : isTerminalState state = true) :
    (call = .store ∧ call.step state flag = (.kClosed,.close)) ∨ (call ≠ .store ∧ call.step state flag = (state,.returned)) := by
  have leaving := leaving_of_terminal terminal
  cases call with
  | load => exact Or.inr ⟨nofun,by rw [DisconnectCall.step,if_pos leaving]⟩
  | exchange expected =>
    have differs : state ≠ expected := by
      rintro rfl
      exact absurd (leaving.symm.trans sound) nofun
    exact Or.inr ⟨nofun,by rw [DisconnectCall.step,if_neg (fun won => differs won.1),if_pos leaving]⟩
  | store => exact Or.inl ⟨rfl,rfl⟩
  | close => exact Or.inr ⟨nofun,rfl⟩
  | returned => exact Or.inr ⟨nofun,rfl⟩

theorem IoLoop.step_state (idle : ¬ loop.Pending) : (loop.step state flag).1 = state := by
  cases loop with
  | check | transfer | returned => rfl
  | forceErrorState => exact absurd (Or.inr rfl) idle

theorem IoLoop.step_idle (idle : ¬ loop.Pending) (terminal : isTerminalState state = true) : ¬ (loop.step state flag).2.Pending := by
  have other : state ≠ .kActive := by
    rintro rfl
    cases terminal
  cases loop with
  | check =>
    rw [IoLoop.step,if_neg other]
    rintro (pending | pending) <;> cases pending
  | transfer => exact absurd (Or.inl rfl) idle
  | forceErrorState => exact absurd (Or.inr rfl) idle
  | returned => exact idle

theorem IoLoop.step_error : (loop.step .kError flag).1 = .kError := by
  cases loop <;> rfl

theorem IoLoop.step_settled (flag : Bool) (terminal : isTerminalState state = true)
    (settled : state = .kClosed → ¬ loop.Pending) :
    (loop.step state flag).1 = state ∧ (state = .kClosed → ¬ (loop.step state flag).2.Pending) := by
  rcases terminal_iff.mp terminal with closed | rfl
  · have idle := settled closed
    exact ⟨IoLoop.step_state idle,fun _ => IoLoop.step_idle idle terminal⟩
  · exact ⟨IoLoop.step_error,nofun⟩

end steps

namespace SessionActors
variable {s : SessionActors}

theorem setLoop_state (loop : IoLoop) : (s.setLoop loop direction).state = s.state := by cases direction <;> rfl

theorem setLoop_calls (loop : IoLoop) : (s.setLoop loop direction).calls = s.calls := by cases direction <;> rfl

theorem setLoop_loop (loop : IoLoop) :
    (s.setLoop loop direction).loop other = if other = direction then loop else s.loop other := by
  cases direction <;> cases other <;> rfl

def Sound (s : SessionActors) : Prop := ∀ call ∈ s.calls,call.Sound

-- Nobody is left who would write the other terminal state.
def Settled (s : SessionActors) : Prop :=
  (s.state = .kClosed → ∀ direction,¬ (s.loop direction).Pending) ∧ (s.state = .kError → .store ∉ s.calls)

theorem apply_sound (action : Action) (sound : s.Sound) : (s.apply action).Sound := by
  intro call member
  cases action with
  | disconnect =>
    rcases List.mem_append.mp member with old | new
    · exact sound call old
    · rw [List.mem_singleton.mp new]
      trivial
  | call index spurious =>
    rw [apply] at member
    split at member
    · exact sound call member
    · rcases List.mem_or_eq_of_mem_set member with old | rfl
      · exact sound call old
      · exact DisconnectCall.step_sound
  | io direction failed =>
    rw [apply,setLoop_calls] at member
    exact sound call member

theorem connected_sound : connected.Sound := fun _ member => absurd member List.not_mem_nil

theorem apply_settled (action : Action) (sound : s.Sound) (terminal : isTerminalState s.state = true) (settled : s.Settled) :
    (s.apply action).state = s.state ∧ (s.apply action).Settled := by
  obtain ⟨loops,calls⟩ := settled
  cases action with
  | disconnect =>
    refine ⟨rfl,loops,fun error member => ?_⟩
    rcases List.mem_append.mp member with old | new
    · exact calls error old
    · cases List.mem_singleton.mp new
  | call index spurious =>
    rw [apply]
    split
    · exact ⟨rfl,loops,calls⟩
    rename_i call found
    have member : call ∈ s.calls := List.mem_of_getElem? found
    rcases DisconnectCall.step_terminal (sound call member) terminal with ⟨rfl,stepped⟩ | ⟨_,stepped⟩
    · -- Only a closed session still has a call that stores.
      have closed : s.state = .kClosed := (terminal_iff.mp terminal).resolve_right fun error => calls error member
      rw [stepped]
      exact ⟨closed.symm,fun _ => loops closed,nofun⟩
    · rw [stepped]
      refine ⟨rfl,loops,fun error member => ?_⟩
      rcases List.mem_or_eq_of_mem_set member with old | same
      · exact calls error old
      · cases same
  | io direction failed =>
    obtain ⟨same,idle⟩ := IoLoop.step_settled failed terminal fun closed => loops closed direction
    have kept : (s.apply (.io direction failed)).state = s.state := (setLoop_state _).trans same
    refine ⟨kept,fun closed other => ?_,fun error => ?_⟩
    · rw [apply,setLoop_loop]
      split
      · exact idle (kept.symm.trans closed)
      · exact loops (kept.symm.trans closed) other
    · rw [apply,setLoop_calls]
      exact calls (kept.symm.trans error)

theorem run_settled (sound : s.Sound) (terminal : isTerminalState s.state = true) (settled : s.Settled)
    (path : machine.Sequence s actions next) : next.state = s.state := by
  refine (path.keeps (fun later => later.Sound ∧ later.state = s.state ∧ later.Settled) ⟨sound,rfl,settled⟩ ?_).2.1
  rintro later action _ ⟨sound,same,settled⟩
  obtain ⟨kept,settled⟩ := apply_settled action sound (same ▸ terminal) settled
  exact ⟨apply_sound action sound,kept.trans same,settled⟩

theorem pending_fails (pending : (s.loop direction).Pending) :
    ∃ actions next,machine.Sequence s actions next ∧ next.state = .kError := by
  rcases pending with transfer | force
  · have begun : (s.apply (.io direction true)).loop direction = .forceErrorState := by
      rw [apply,setLoop_loop,if_pos rfl,transfer]
      rfl
    refine ⟨[.io direction true,.io direction true],_,.cons ?_ (.single ?_),?_⟩
    · show s.loop direction ≠ .returned
      rw [transfer]
      nofun
    · show (s.apply (.io direction true)).loop direction ≠ .returned
      rw [begun]
      nofun
    · show ((s.apply (.io direction true)).apply (.io direction true)).state = .kError
      rw [apply,begun]
      exact setLoop_state _
  · refine ⟨[.io direction true],_,.single ?_,?_⟩
    · show s.loop direction ≠ .returned
      rw [force]
      nofun
    · show (s.apply (.io direction true)).state = .kError
      rw [apply,force]
      exact setLoop_state _

theorem store_closes (member : .store ∈ s.calls) : ∃ actions next,machine.Sequence s actions next ∧ next.state = .kClosed := by
  obtain ⟨index,inside,found⟩ := List.mem_iff_getElem.mp member
  have found := List.getElem?_eq_some_iff.mpr ⟨inside,found⟩
  refine ⟨[.call index false],_,.single inside,?_⟩
  show (s.apply (.call index false)).state = .kClosed
  rw [apply,found]
  rfl

theorem terminal_absorbing_iff_settled (s : SessionActors) (actions : List Action) (reached : machine.Sequence connected actions s)
    (terminal : isTerminalState s.state = true) :
    (∀ later next,machine.Sequence s later next → next.state = s.state) ↔ s.Settled := by
  have sound : s.Sound := reached.keeps Sound connected_sound fun s action _ sound => apply_sound action sound
  constructor
  · intro absorbing
    refine ⟨fun closed direction pending => ?_,fun error member => ?_⟩
    · obtain ⟨later,next,path,failed⟩ := pending_fails pending
      exact absurd ((failed.symm.trans (absorbing later next path)).trans closed) nofun
    · obtain ⟨later,next,path,stored⟩ := store_closes member
      exact absurd ((stored.symm.trans (absorbing later next path)).trans error) nofun
  · intro settled later next path
    exact run_settled sound terminal settled path

def closedEarly : List Action := [.disconnect,.call 0 false,.call 0 false,.call 0 false]

theorem closed_early_settled : (closedEarly.foldl apply connected).Settled := by
  refine ⟨fun _ direction pending => ?_,nofun⟩
  cases direction <;> rcases pending with wrong | wrong <;> cases wrong

theorem closed_early_absorbing : (closedEarly.foldl apply connected).state = .kClosed ∧
    ∀ later next,machine.Sequence (closedEarly.foldl apply connected) later next → next.state = .kClosed :=
  ⟨rfl,(terminal_absorbing_iff_settled _ closedEarly (Machine.sequence_of_check (by decide +kernel)) (by decide +kernel)).mpr
    closed_early_settled⟩

def closedThenFailed : List Action :=
  [.io .receive false,.disconnect,.call 0 false,.call 0 false,.call 0 false,.call 0 false]

def failedThenClosed : List Action :=
  [.io .receive false,.disconnect,.call 0 false,.call 0 false,.io .receive true,.io .receive true]

theorem terminal_states_change : (∃ s next,machine.Sequence connected closedThenFailed s ∧ s.state = .kClosed ∧
      machine.Sequence s [.io .receive true,.io .receive true] next ∧ next.state = .kError) ∧
    (∃ s next,machine.Sequence connected failedThenClosed s ∧ s.state = .kError ∧
      machine.Sequence s [.call 0 false] next ∧ next.state = .kClosed) :=
  ⟨⟨_,_,Machine.sequence_of_check (by decide +kernel),by decide +kernel,Machine.sequence_of_check (by decide +kernel),by decide +kernel⟩,
    _,_,Machine.sequence_of_check (by decide +kernel),by decide +kernel,Machine.sequence_of_check (by decide +kernel),by decide +kernel⟩

end SessionActors

end EvmRelay.Rlpx
