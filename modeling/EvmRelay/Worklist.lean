import Mathlib.Data.List.Nodup
import Mathlib.Data.List.Perm.Subperm
import Mathlib.Order.WellFounded

namespace EvmRelay

namespace Worklist

inductive Reachable (roots : List ν) (children : ν → List ν) : ν → Prop where
  | root : node ∈ roots → Reachable roots children node
  | child : Reachable roots children parent → node ∈ children parent → Reachable roots children node

-- A search between what it has seen and what it has still to look at, where a
-- node may wait more than once.
structure Frontier (roots : List ν) (children : ν → List ν) (pending seen : List ν) : Prop where
  once : seen.Nodup
  waiting : ∀ node ∈ pending,Reachable roots children node
  reached : ∀ node ∈ seen,Reachable roots children node
  begun : ∀ node ∈ roots,node ∈ seen ∨ node ∈ pending
  closed : ∀ parent ∈ seen,∀ node ∈ children parent,node ∈ seen ∨ node ∈ pending

variable {node : ν}

theorem Frontier.start : Frontier roots children roots [] where
  once := List.nodup_nil
  waiting := fun _ member => .root member
  reached := fun _ member => absurd member List.not_mem_nil
  begun := fun _ member => Or.inr member
  closed := fun _ member => absurd member List.not_mem_nil

theorem Frontier.skip (frontier : Frontier roots children (node :: pending) seen) (old : node ∈ seen) :
    Frontier roots children pending seen := by
  have still (other : ν) (known : other ∈ seen ∨ other ∈ node :: pending) : other ∈ seen ∨ other ∈ pending := by
    rcases known with known | waits
    · exact Or.inl known
    · rcases List.mem_cons.mp waits with rfl | waits
      · exact Or.inl old
      · exact Or.inr waits
  exact ⟨frontier.once,fun other member => frontier.waiting other (List.mem_cons_of_mem _ member),frontier.reached,
    fun other member => still other (frontier.begun other member),
    fun parent inside other member => still other (frontier.closed parent inside other member)⟩

theorem Frontier.visit (frontier : Frontier roots children (node :: pending) seen) (new : node ∉ seen) (found : List ν)
    (some : ∀ other ∈ found,other ∈ children node) (all : ∀ other ∈ children node,other ∈ seen ++ [node] ∨ other ∈ found) :
    Frontier roots children (pending ++ found) (seen ++ [node]) := by
  have reachable := frontier.waiting node List.mem_cons_self
  have still (other : ν) (known : other ∈ seen ∨ other ∈ node :: pending) : other ∈ seen ++ [node] ∨ other ∈ pending ++ found := by
    rcases known with known | waits
    · exact Or.inl (List.mem_append_left _ known)
    · rcases List.mem_cons.mp waits with rfl | waits
      · exact Or.inl (List.mem_append_right _ List.mem_cons_self)
      · exact Or.inr (List.mem_append_left _ waits)
  refine ⟨?_,fun other member => ?_,fun other member => ?_,fun other member => still other (frontier.begun other member),
    fun parent inside other member => ?_⟩
  · rw [List.nodup_append_comm]
    exact List.nodup_cons.mpr ⟨new,frontier.once⟩
  · rcases List.mem_append.mp member with old | fresh
    · exact frontier.waiting other (List.mem_cons_of_mem _ old)
    · exact .child reachable (some other fresh)
  · rcases List.mem_append.mp member with old | same
    · exact frontier.reached other old
    · rw [List.mem_singleton.mp same]
      exact reachable
  · rcases List.mem_append.mp inside with old | same
    · exact still other (frontier.closed parent old other member)
    · rw [List.mem_singleton.mp same] at member
      exact (all other member).imp_right (List.mem_append_right pending)

theorem Frontier.complete (frontier : Frontier roots children pending seen) (stale : ∀ node ∈ pending,node ∈ seen)
    (reachable : Reachable roots children node) : node ∈ seen := by
  induction reachable with
  | root member => exact (frontier.begun _ member).elim id (stale _)
  | child _ member ih => exact (frontier.closed _ ih _ member).elim id (stale _)

theorem Frontier.exhausted (frontier : Frontier roots children pending seen) (distinct : nodes.Nodup)
    (all : ∀ node,node ∈ nodes ↔ Reachable roots children node) (finished : pending = [] ∨ nodes.length ≤ seen.length) :
    seen.Perm nodes := by
  have inside : seen.Subperm nodes :=
    List.subperm_of_subset frontier.once fun node member => (all node).mpr (frontier.reached node member)
  rcases finished with rfl | many
  · have outside : nodes.Subperm seen :=
      List.subperm_of_subset distinct fun node member =>
        frontier.complete (fun _ waits => absurd waits List.not_mem_nil) ((all node).mp member)
    exact inside.antisymm outside
  · exact inside.perm_of_length_le many

end Worklist
end EvmRelay
