import EvmRelay.Machine
import Mathlib.Algebra.BigOperators.Group.Finset.Basic
import Mathlib.Algebra.BigOperators.Group.Finset.Piecewise
import Mathlib.Algebra.BigOperators.Ring.Finset
import Mathlib.Data.Fintype.Basic

namespace EvmRelay

-- Slots handed out to several holders under two caps, one for each holder and
-- one for all of them together.
structure SlotPool (ι : Type u) where
  capTotal : Int
  capEach : Int
  held : ι → Nat

namespace SlotPool

inductive Move (ι : Type u) where
  | take (i : ι)
  | giveBack (i : ι)

variable [Fintype ι] [DecidableEq ι]

def total (pool : SlotPool ι) : Nat := ∑ i,pool.held i

def Allowed (pool : SlotPool ι) : Move ι → Prop
  | .take i => (pool.held i : Int) < pool.capEach ∧ (pool.total : Int) < pool.capTotal
  | .giveBack i => 0 < pool.held i

def apply (pool : SlotPool ι) : Move ι → SlotPool ι
  | .take i => { pool with held := fun j => pool.held j + if j = i then 1 else 0 }
  | .giveBack i => { pool with held := fun j => pool.held j - if j = i then 1 else 0 }

def machine (ι : Type u) [Fintype ι] [DecidableEq ι] : Machine (SlotPool ι) (Move ι) := ⟨Allowed,apply⟩

variable {pool : SlotPool ι}

omit [DecidableEq ι] in
theorem empty_total (capTotal capEach : Int) : (SlotPool.mk capTotal capEach (fun _ : ι => 0)).total = 0 := by
  simp [total]

theorem take_total : (pool.apply (.take i)).total = pool.total + 1 := by
  simp [total,apply,Finset.sum_add_distrib]

theorem giveBack_total (holds : 0 < pool.held i) : (pool.apply (.giveBack i)).total + 1 = pool.total := by
  have again : ((pool.apply (.giveBack i)).apply (.take i)).held = pool.held := by
    funext j
    by_cases own : j = i
    · subst own
      simp [apply,Nat.sub_add_cancel holds]
    · simp [apply,own]
  rw [← take_total,total,total,again]

def Within (pool : SlotPool ι) : Prop :=
  (∀ i,(pool.held i : Int) ≤ pool.capEach) ∧ (pool.total : Int) ≤ pool.capTotal

theorem within_step (allowed : pool.Allowed move) (within : pool.Within) : (pool.apply move).Within := by
  obtain ⟨each,all⟩ := within
  cases move with
  | take i =>
    refine ⟨?_,?_⟩
    · intro j
      have bound := each j
      by_cases own : j = i
      · subst own
        simp only [apply,if_true]
        exact_mod_cast allowed.1
      · simpa [apply,own] using bound
    · rw [take_total]
      exact_mod_cast allowed.2
  | giveBack i =>
    refine ⟨?_,?_⟩
    · intro j
      exact le_trans (by simp [apply]) (each j)
    · have one := giveBack_total allowed
      simp only [apply] at one ⊢
      omega

theorem within_kept (path : (machine ι).Sequence pool moves next) (within : pool.Within) : next.Within :=
  path.keeps Within within (fun _ _ allowed held => within_step allowed held)

theorem caps_kept (path : (machine ι).Sequence pool moves next) :
    next.capTotal = pool.capTotal ∧ next.capEach = pool.capEach := by
  refine path.keeps (fun next => next.capTotal = pool.capTotal ∧ next.capEach = pool.capEach) ⟨rfl,rfl⟩ ?_
  intro before move _ same
  cases move with
  | take i => exact same
  | giveBack i => exact same

end SlotPool
end EvmRelay
