import Mathlib.Logic.Basic

namespace EvmRelay

-- A computation that emits events as it runs and may stop with an error. What
-- it emitted before the stop stays emitted.
structure Emitting (ε τ α : Type) where
  events : List τ
  outcome : Except ε α

namespace Emitting

def emit (event : τ) : Emitting ε τ Unit := ⟨[event],.ok ()⟩

def stop (error : ε) : Emitting ε τ α := ⟨[],.error error⟩

def andThen (run : Emitting ε τ α) (next : α → Emitting ε τ β) : Emitting ε τ β :=
  match run.outcome with
  | .error error => ⟨run.events,.error error⟩
  | .ok value => ⟨run.events ++ (next value).events,(next value).outcome⟩

instance : Monad (Emitting ε τ) where
  pure value := ⟨[],.ok value⟩
  bind := andThen

def Completes (run : Emitting ε τ α) : Prop := ∃ value,run.outcome = .ok value

@[simp] theorem pure_events : (pure value : Emitting ε τ α).events = [] := rfl

@[simp] theorem pure_outcome (value : α) : (pure value : Emitting ε τ α).outcome = .ok value := rfl

@[simp] theorem emit_events (event : τ) : (emit event : Emitting ε τ Unit).events = [event] := rfl

@[simp] theorem stop_events (error : ε) : (stop error : Emitting ε τ α).events = [] := rfl

@[simp] theorem pure_completes (value : α) : (pure value : Emitting ε τ α).Completes := ⟨value,rfl⟩

@[simp] theorem emit_completes (event : τ) : (emit event : Emitting ε τ Unit).Completes := ⟨(),rfl⟩

@[simp] theorem stop_completes (error : ε) : ¬ (stop error : Emitting ε τ α).Completes := by
  intro completes
  rcases completes with ⟨_,ended⟩
  cases ended

theorem outcome_bind {next : α → Emitting ε τ β} :
    (run >>= next).outcome = .ok result ↔ ∃ value,run.outcome = .ok value ∧ (next value).outcome = .ok result := by
  show (andThen run next).outcome = _ ↔ _
  unfold andThen
  cases run.outcome <;> simp

theorem mem_bind {next : α → Emitting ε τ β} : event ∈ (run >>= next).events ↔
      event ∈ run.events ∨ ∃ value,run.outcome = .ok value ∧ event ∈ (next value).events := by
  show event ∈ (andThen run next).events ↔ _
  unfold andThen
  cases run.outcome <;> simp

theorem bind_events {next : α → Emitting ε τ β} (ran : run.outcome = .ok value) :
    (run >>= next).events = run.events ++ (next value).events := by
  show (andThen run next).events = _
  unfold andThen
  rw [ran]

theorem bind_stopped {next : α → Emitting ε τ β} (ran : run.outcome = .error error) :
    run >>= next = ⟨run.events,.error error⟩ := by
  show andThen run next = _
  unfold andThen
  rw [ran]

theorem bind_pure_self (run : Emitting ε τ α) : (run >>= fun value => pure value) = run := by
  obtain ⟨events,outcome⟩ := run
  cases outcome with
  | error error => rfl
  | ok value => exact congrArg (Emitting.mk · _) (List.append_nil ..)

theorem bind_bind (next : α → Emitting ε τ β) : (run >>= next) >>= last = run >>= fun value => next value >>= last := by
  show andThen (andThen run next) last = andThen run fun value => andThen (next value) last
  unfold andThen
  cases run.outcome with
  | error error => rfl
  | ok value =>
    dsimp only
    cases (next value).outcome with
    | error error => rfl
    | ok found => simp

theorem bind_completes {next : α → Emitting ε τ β} :
    (run >>= next).Completes ↔ ∃ value,run.outcome = .ok value ∧ (next value).Completes := by
  unfold Completes
  simp only [outcome_bind]
  constructor
  · intro completes
    rcases completes with ⟨result,value,ran,ended⟩
    exact ⟨value,ran,result,ended⟩
  · intro completes
    rcases completes with ⟨value,ran,result,ended⟩
    exact ⟨result,value,ran,ended⟩

@[simp] theorem bind_pure_completes {run : Emitting ε τ α} (f : α → β) :
    (run >>= fun value => pure (f value)).Completes ↔ run.Completes := by
  rw [bind_completes]
  simp [Completes]

theorem bind_pure_events {run : Emitting ε τ α} (f : α → β) : (run >>= fun value => pure (f value)).events = run.events := by
  show (andThen run _).events = _
  unfold andThen
  cases run.outcome with
  | error error => rfl
  | ok value => exact List.append_nil ..

@[simp] theorem mem_bind_pure {run : Emitting ε τ α} (f : α → β) :
    event ∈ (run >>= fun value => pure (f value)).events ↔ event ∈ run.events := by
  rw [bind_pure_events]

def during (label : κ) (run : Emitting ε τ α) : Emitting ε (κ × τ) α :=
  ⟨run.events.map (fun event => (label,event)),run.outcome⟩

@[simp] theorem during_outcome (run : Emitting ε τ α) : (run.during label).outcome = run.outcome := rfl

@[simp] theorem mem_during {run : Emitting ε τ α} :
    (other,event) ∈ (run.during label).events ↔ other = label ∧ event ∈ run.events := by
  simp only [during,List.mem_map,Prod.mk.injEq]
  constructor
  · intro labelled
    rcases labelled with ⟨_,emitted,rfl,rfl⟩
    exact ⟨rfl,emitted⟩
  · intro stated
    rcases stated with ⟨rfl,emitted⟩
    exact ⟨event,emitted,rfl,rfl⟩

def relabel (tell : τ → υ) (run : Emitting ε τ α) : Emitting ε υ α := ⟨run.events.map tell,run.outcome⟩

@[simp] theorem relabel_outcome (tell : τ → υ) (run : Emitting ε τ α) : (run.relabel tell).outcome = run.outcome := rfl

@[simp] theorem mem_relabel {tell : τ → υ} {run : Emitting ε τ α} :
    event ∈ (run.relabel tell).events ↔ ∃ own ∈ run.events,tell own = event := List.mem_map

-- A loop over a list with an accumulator. Events are labelled with the number
-- of the round that emitted them.
def loop (body : σ → α → Emitting ε τ σ) (round : Nat) (state : σ) : List α → Emitting ε (Nat × τ) σ
  | [] => pure state
  | item :: rest => do
    let state ← (body state item).during round
    loop body (round + 1) state rest

section loop
variable {body : σ → α → Emitting ε τ σ} {round : Nat}

theorem mem_loop :
    (number,event) ∈ (loop body round state items).events ↔ ∃ j item before,number = round + j ∧ items[j]? = some item ∧
        (loop body round state (items.take j)).outcome = .ok before ∧ event ∈ (body before item).events := by
  induction items generalizing round state with
  | nil => simp [loop]
  | cons first rest ih =>
    simp only [loop,mem_bind,mem_during,during_outcome,ih]
    constructor
    · intro ran
      rcases ran with ⟨rfl,emitted⟩ | ⟨after,ran,j,item,before,rfl,found,reached,emitted⟩
      · exact ⟨0,first,state,rfl,rfl,rfl,emitted⟩
      · exact ⟨j + 1,item,before,by omega,found,outcome_bind.mpr ⟨after,ran,reached⟩,emitted⟩
    · intro stated
      rcases stated with ⟨j,item,before,rfl,found,reached,emitted⟩
      cases j with
      | zero =>
        cases found
        cases reached
        exact .inl ⟨rfl,emitted⟩
      | succ j =>
        obtain ⟨after,ran,reached⟩ := outcome_bind.mp reached
        exact .inr ⟨after,ran,j,item,before,by omega,found,reached,emitted⟩

def Carries (body : σ → α → Emitting ε τ σ) (items : List α) (holds : Nat → σ → Prop) : Prop :=
  ∀ k before item after,items[k]? = some item → holds k before → (body before item).outcome = .ok after → holds (k + 1) after

theorem loop_invariant (holds : Nat → σ → Prop) (initial : holds 0 state) (kept : Carries body items holds)
    (ended : (loop body round state items).outcome = .ok final) : holds items.length final := by
  induction items generalizing round state holds with
  | nil =>
    cases ended
    exact initial
  | cons first rest ih =>
    obtain ⟨after,ran,ended⟩ := outcome_bind.mp ended
    refine ih (fun k => holds (k + 1)) ?_ ?_ ended
    · exact kept 0 state first after rfl initial ran
    · intro k before item after found
      exact kept (k + 1) before item after found

theorem loop_told_mem (holds : List τ → σ → Prop)
    (initial : holds past state)
    (kept : ∀ past before item after,item ∈ items → holds past before → (body before item).outcome = .ok after →
      holds (past ++ (body before item).events) after) (ended : (loop body round state items).outcome = .ok final) :
    holds (past ++ (loop body round state items).events.map Prod.snd) final := by
  induction items generalizing round state past with
  | nil =>
    cases ended
    simpa [loop] using initial
  | cons first rest ih =>
    obtain ⟨after,ran,ended⟩ := outcome_bind.mp ended
    have told := ih (kept past state first after List.mem_cons_self initial ran)
      (fun past before item after member => kept past before item after (List.mem_cons_of_mem _ member)) ended
    have events : (loop body round state (first :: rest)).events =
        ((body state first).during round).events ++ (loop body (round + 1) after rest).events := bind_events ran
    rw [events]
    simpa [during,Function.comp_def] using told

theorem loop_told (holds : List τ → σ → Prop) (initial : holds past state)
    (kept : ∀ past before item after,holds past before → (body before item).outcome = .ok after →
      holds (past ++ (body before item).events) after) (ended : (loop body round state items).outcome = .ok final) :
    holds (past ++ (loop body round state items).events.map Prod.snd) final :=
  loop_told_mem holds initial (fun past before item after _ => kept past before item after) ended

theorem loop_snoc (body : σ → α → Emitting ε τ σ) (round : Nat) (items : List α) : loop body round state (items ++ [item]) =
      loop body round state items >>= fun last => (body last item).during (round + items.length) := by
  induction items generalizing round state with
  | nil => exact bind_pure_self _
  | cons first rest ih =>
    have later : round + (first :: rest).length = round + 1 + rest.length := by
      rw [List.length_cons]
      omega
    rw [later]
    simp only [List.cons_append,loop,ih,bind_bind]

theorem loop_reached {items : List α} (holds : Nat → σ → Prop) (initial : holds 0 state) (kept : Carries body items holds)
    (found : items[j]? = some item) (reached : (loop body round state (items.take j)).outcome = .ok before) :
    holds j before := by
  have inside := (List.getElem?_eq_some_iff.mp found).1
  have size := List.length_take_of_le (Nat.le_of_lt inside)
  rw [← size]
  refine loop_invariant holds initial ?_ reached
  intro k before item after found
  rw [List.getElem?_take] at found
  split at found
  · exact kept k before item after found
  · cases found

theorem loop_completes_at (ends : Nat → α → Prop) (holds : Nat → σ → Prop)
    (each : ∀ k before item,holds k before → ((body before item).Completes ↔ ends k item)) (initial : holds 0 state)
    (kept : Carries body items holds) : (loop body round state items).Completes ↔ ∀ k item,items[k]? = some item → ends k item := by
  induction items generalizing round state ends holds with
  | nil => simp [loop]
  | cons first rest ih =>
    have later (after : σ) (ran : (body state first).outcome = .ok after) :
        (loop body (round + 1) after rest).Completes ↔ ∀ k item,rest[k]? = some item → ends (k + 1) item :=
      ih (fun k => ends (k + 1)) (fun k => holds (k + 1)) (fun k => each (k + 1)) (kept 0 state first after rfl initial ran)
        (fun k before item after found => kept (k + 1) before item after found)
    simp only [loop,bind_completes,during_outcome]
    constructor
    · rintro ⟨after,ran,completes⟩
      intro k item found
      cases k with
      | zero =>
        cases found
        exact (each 0 state first initial).mp ⟨after,ran⟩
      | succ k => exact (later after ran).mp completes k item found
    · intro all
      obtain ⟨after,ran⟩ := (each 0 state first initial).mpr (all 0 first rfl)
      exact ⟨after,ran,(later after ran).mpr fun k item found => all (k + 1) item found⟩

-- The rule for such a loop: the invariant of the accumulator says what round j
-- emits, and the items before it say whether round j is run at all.
theorem mem_loop_at {event : τ} (ends : Nat → α → Prop) (holds : Nat → σ → Prop)
    (emits : Nat → α → τ → Prop)
    (each : ∀ k before item,holds k before → ((body before item).Completes ↔ ends k item)) (initial : holds 0 state)
    (kept : Carries body items holds)
    (emitted : ∀ k before item event,holds k before → (event ∈ (body before item).events ↔ emits k item event)) :
    (j,event) ∈ (loop body 0 state items).events ↔
      ∃ item,items[j]? = some item ∧ (∀ k earlier,k < j → items[k]? = some earlier → ends k earlier) ∧ emits j item event := by
  have before (k : Nat) (earlier : α) : (items.take j)[k]? = some earlier ↔ k < j ∧ items[k]? = some earlier := by
    rw [List.getElem?_take]
    by_cases inside : k < j
    · simp [inside]
    · simp [inside]
  have part : (loop body 0 state (items.take j)).Completes ↔ ∀ k earlier,k < j → items[k]? = some earlier → ends k earlier := by
    rw [loop_completes_at ends holds each initial]
    · simp only [before,and_imp]
    · intro k earlier item after found
      exact kept k earlier item after ((before k item).mp found).2
  rw [mem_loop]
  constructor
  · rintro ⟨k,item,reached,same,found,ended,ran⟩
    rw [Nat.zero_add] at same
    subst same
    have invariant := loop_reached holds initial kept found ended
    exact ⟨item,found,part.mp ⟨reached,ended⟩,(emitted j reached item event invariant).mp ran⟩
  · rintro ⟨item,found,earlier,stated⟩
    obtain ⟨reached,ended⟩ := part.mpr earlier
    have invariant := loop_reached holds initial kept found ended
    exact ⟨j,item,reached,(Nat.zero_add j).symm,found,ended,(emitted j reached item event invariant).mpr stated⟩

theorem loop_completes (ends : α → Prop) (each : ∀ before item,(body before item).Completes ↔ ends item) :
    (loop body round state items).Completes ↔ ∀ item ∈ items,ends item := by
  rw [loop_completes_at (fun _ => ends) (fun _ _ => True) (fun _ before item _ => each before item) trivial
    (fun _ _ _ _ _ _ _ => trivial)]
  simp only [List.mem_iff_getElem?]
  exact ⟨fun all item ⟨k,found⟩ => all k item found,fun all k item found => all item ⟨k,found⟩⟩

theorem forall_mem_take {items : List α} {ends : α → Prop} :
    (∀ earlier ∈ items.take j,ends earlier) ↔ ∀ k earlier,k < j → items[k]? = some earlier → ends earlier := by
  simp only [List.mem_take_iff_getElem,List.getElem?_eq_some_iff]
  constructor
  · rintro all k _ before ⟨inside,rfl⟩
    exact all _ ⟨k,by omega,rfl⟩
  · rintro all _ ⟨k,before,rfl⟩
    exact all k _ (by omega) ⟨by omega,rfl⟩

theorem mem_loop_iff {state : σ} (ends : α → Prop) (holds : Nat → σ → Prop)
    (emits : Nat → α → τ → Prop) (each : ∀ before item,(body before item).Completes ↔ ends item) (initial : holds 0 state)
    (kept : Carries body items holds)
    (emitted : ∀ k before item event,holds k before → (event ∈ (body before item).events ↔ emits k item event)) :
    (j,event) ∈ (loop body 0 state items).events ↔
      ∃ item,items[j]? = some item ∧ (∀ earlier ∈ items.take j,ends earlier) ∧ emits j item event := by
  rw [mem_loop_at (fun _ => ends) holds emits (fun _ before item _ => each before item) initial kept emitted]
  simp only [forall_mem_take]

def ByRound (earlier : π → τ → Prop) (one : Nat × π) (other : Nat × τ) : Prop :=
  one.1 < other.1 ∨ one.1 = other.1 ∧ earlier one.2 other.2

theorem loop_ordered {earlier : τ → τ → Prop} (each : ∀ state item,(body state item).events.Pairwise earlier)
    (round : Nat) (state : σ) : (loop body round state items).events.Pairwise (ByRound earlier) := by
  induction items generalizing round state with
  | nil => exact .nil
  | cons first rest ih =>
    have own : ((body state first).during round).events.Pairwise (ByRound earlier) :=
      List.pairwise_map.mpr ((each state first).imp fun before => Or.inr ⟨rfl,before⟩)
    cases ran : ((body state first).during round).outcome with
    | error error =>
      rw [loop,bind_stopped ran]
      exact own
    | ok after =>
      rw [loop,bind_events ran]
      refine List.pairwise_append.mpr ⟨own,ih _ _,?_⟩
      rintro ⟨number,event⟩ member ⟨next,other⟩ later
      obtain ⟨rfl,_⟩ := mem_during.mp member
      obtain ⟨j,_,_,rfl,_⟩ := mem_loop.mp later
      exact Or.inl (by omega)

end loop
end Emitting
end EvmRelay
