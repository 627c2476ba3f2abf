import Mathlib.Data.List.Induction
import Mathlib.Order.Basic

namespace EvmRelay

-- A machine takes an action only in a state that allows it.
structure Machine (σ : Type u) (ε : Type v) where
  Allowed : σ → ε → Prop
  apply : σ → ε → σ

namespace Machine

inductive Sequence (machine : Machine σ ε) : σ → List ε → σ → Prop where
  | nil : Sequence machine s [] s
  | cons : machine.Allowed s action → Sequence machine (machine.apply s action) rest next →
      Sequence machine s (action :: rest) next

variable {machine : Machine σ ε}

theorem Sequence.append (one : machine.Sequence s first middle) (two : machine.Sequence middle second next) :
    machine.Sequence s (first ++ second) next := by
  induction one with
  | nil => exact two
  | cons allowed _ ih => exact .cons allowed (ih two)

theorem Sequence.single (allowed : machine.Allowed s action) : machine.Sequence s [action] (machine.apply s action) :=
  .cons allowed .nil

-- A property of the actions taken so far and the state they led to: it is
-- enough to extend it by one action at the end.
theorem Sequence.history (holds : List ε → σ → Prop) (start : holds [] s)
    (step : ∀ past s action,machine.Allowed s action → holds past s → holds (past ++ [action]) (machine.apply s action))
    (path : machine.Sequence s actions next) : holds actions next := by
  have extended : ∀ past,holds past s → holds (past ++ actions) next := by
    clear start
    induction path with
    | nil =>
      intro past held
      simpa using held
    | @cons s action rest next allowed _ ih =>
      intro past held
      simpa using ih (past ++ [action]) (step past s action allowed held)
  simpa using extended [] start

theorem Sequence.keeps (invariant : σ → Prop) (start : invariant s)
    (step : ∀ s action,machine.Allowed s action → invariant s → invariant (machine.apply s action))
    (path : machine.Sequence s actions next) : invariant next :=
  path.history (fun _ => invariant) start (fun _ => step)

def check (machine : Machine σ ε) [∀ s action,Decidable (machine.Allowed s action)] : σ → List ε → Bool
  | _,[] => true
  | s,action :: rest => decide (machine.Allowed s action) && check machine (machine.apply s action) rest

theorem sequence_of_check [∀ s action,Decidable (machine.Allowed s action)] (taken : machine.check s actions = true) :
    machine.Sequence s actions (actions.foldl machine.apply s) := by
  induction actions generalizing s with
  | nil => exact .nil
  | cons action rest ih =>
    rw [check,Bool.and_eq_true,decide_eq_true_iff] at taken
    exact .cons taken.1 (ih taken.2)

theorem ordered_bounded [Preorder τ] [Nonempty τ] {readings : List τ} (ordered : readings.Pairwise (· ≤ ·)) :
    ∃ time,∀ reading ∈ readings,reading ≤ time := by
  cases readings using List.reverseRecOn with
  | nil => exact ⟨Classical.arbitrary τ,nofun⟩
  | append_singleton earlier last =>
    refine ⟨last,fun reading member => ?_⟩
    rcases List.mem_append.mp member with before | single
    · exact (List.pairwise_append.mp ordered).2.2 reading before last List.mem_cons_self
    · exact (List.mem_singleton.mp single).le

-- A property of the state and of the time, where actions read a clock that never
-- goes back. It holds at any time that no reading is later than.
theorem Sequence.clocked [Preorder τ] [Nonempty τ] (readings : ε → List τ) (holds : σ → τ → Prop) (start : ∀ time,holds s time)
    (step : ∀ s action time time',machine.Allowed s action → holds s time → (time :: (readings action ++ [time'])).Pairwise (· ≤ ·) →
      holds (machine.apply s action) time')
    (path : machine.Sequence s actions next) (ordered : (actions.flatMap readings).Pairwise (· ≤ ·)) : ∃ time,holds next time := by
  obtain ⟨time,past⟩ := ordered_bounded ordered
  refine ⟨time,?_⟩
  refine path.history (fun taken s => (taken.flatMap readings).Pairwise (· ≤ ·) → ∀ time,
    (∀ reading ∈ taken.flatMap readings,reading ≤ time) → holds s time) (fun _ time _ => start time) ?_ ordered time past
  intro taken s action allowed before ordered time past
  rw [List.flatMap_append,List.flatMap_singleton] at ordered past
  obtain ⟨first,second,across⟩ := List.pairwise_append.mp ordered
  have ends := List.pairwise_append.mpr ⟨second,List.pairwise_singleton _ _,fun reading member other single =>
      List.mem_singleton.mp single ▸ past reading (List.mem_append_right _ member)⟩
  -- The state is taken at the action's first reading, or now if it makes none.
  obtain ⟨reading,rest,split⟩ : ∃ reading rest,readings action ++ [time] = reading :: rest := by
    cases readings action with
    | nil => exact ⟨time,[],rfl⟩
    | cons reading rest => exact ⟨reading,rest ++ [time],rfl⟩
  have held : holds s reading := by
    refine before first reading fun earlier member => ?_
    have inside : reading ∈ readings action ++ [time] := split ▸ List.mem_cons_self
    rcases List.mem_append.mp inside with inside | single
    · exact across earlier member reading inside
    · exact List.mem_singleton.mp single ▸ past earlier (List.mem_append_left _ member)
  refine step s action reading time allowed held (List.pairwise_cons.mpr ⟨fun other member => ?_,ends⟩)
  rw [split] at member ends
  rcases List.mem_cons.mp member with rfl | member
  · exact le_rfl
  · exact (List.pairwise_cons.mp ends).1 other member

end Machine
end EvmRelay
