import Mathlib.Logic.Function.Basic

namespace EvmRelay.LastWrite

-- Typed slots filled by a sequence of writes. Whatever the slots hold before,
-- the last write to a slot decides what it holds afterwards.
variable {κ : Type} [DecidableEq κ] {β : κ → Type}

def write (state : (slot : κ) → β slot) (entry : Sigma β) : (slot : κ) → β slot :=
  Function.update state entry.1 entry.2

def run (state : (slot : κ) → β slot) (entries : List (Sigma β)) : (slot : κ) → β slot :=
  entries.foldl write state

def last : List (Sigma β) → (slot : κ) → Option (β slot)
  | [],_ => none
  | entry :: rest,slot =>
    match last rest slot with
    | some value => some value
    | none => if same : entry.1 = slot then some (same ▸ entry.2) else none

theorem run_append (state : (slot : κ) → β slot) :
    run state (first ++ second) = run (run state first) second := List.foldl_append

theorem run_apply (state : (slot : κ) → β slot) : run state entries slot = (last entries slot).getD (state slot) := by
  induction entries generalizing state with
  | nil => rfl
  | cons entry rest ih =>
    have later := ih (write state entry)
    rw [run,List.foldl_cons]
    rw [run] at later
    rw [later,last]
    cases found : last rest slot with
    | some value => rfl
    | none =>
      by_cases same : entry.1 = slot
      · cases same
        simp [write]
      · simp [write,same,Function.update_of_ne (Ne.symm same)]

theorem run_agrees_iff (watched : κ → Prop) (state : (slot : κ) → β slot) :
    (∀ slot, watched slot → run state entries slot = state slot) ↔
      ∀ slot value, watched slot → last entries slot = some value → value = state slot := by
  refine ⟨?_,?_⟩
  · intro kept slot value seen found
    have same := kept slot seen
    rwa [run_apply,found] at same
  · intro repeats slot seen
    rw [run_apply]
    cases found : last entries slot with
    | none => rfl
    | some value => exact repeats slot value seen found

end EvmRelay.LastWrite
