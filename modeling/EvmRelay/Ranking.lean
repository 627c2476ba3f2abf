import Mathlib.Data.List.Lex
import Mathlib.Data.Prod.Lex
import Mathlib.Order.OrderDual

namespace EvmRelay.Ranking

section comparisons
variable {α : Type u} {κ : Type v} {μ : Type w} [LinearOrder κ] [LinearOrder μ] {rank : α → κ} {less : α → α → Bool}

def Ranks (rank : α → κ) (less : α → α → Bool) : Prop :=
  ∀ one other,less one other = true ↔ rank one < rank other

theorem Ranks.not_less_iff (ranks : Ranks rank less) (one other : α) : less one other = false ↔ rank other ≤ rank one := by
  rw [← Bool.not_eq_true,ranks one other,not_lt]

theorem Ranks.lex {key : α → μ} {apart : α → α → Prop} [∀ one other,Decidable (apart one other)]
    (keys : Ranks key first) (differ : ∀ one other,apart one other ↔ key one ≠ key other) (ranks : Ranks rank less) :
    Ranks (fun item => toLex (key item,rank item)) fun one other => if apart one other then first one other else less one other := by
  intro one other
  rw [Prod.Lex.lt_iff]
  dsimp only [ofLex_toLex]
  by_cases same : key one = key other
  · rw [if_neg fun separate => (differ one other).mp separate same,ranks one other]
    simp [same]
  · rw [if_pos ((differ one other).mpr same),keys one other]
    simp [same]

-- What a sort makes of a list: the same items, none behind a greater one.
structure Sorted (less : α → α → Bool) (items sorted : List α) : Prop where
  perm : sorted.Perm items
  ordered : sorted.Pairwise fun one other => less other one = false

def Sorts (less : α → α → Bool) (sort : List α → List α) : Prop := ∀ items,Sorted less items (sort items)

theorem mergeSort_sorts (ranks : Ranks rank less) : Sorts less fun items => items.mergeSort fun one other => !less other one := by
  intro items
  refine ⟨List.mergeSort_perm _ _,?_⟩
  have ordered := @List.pairwise_mergeSort _ (fun one other => !less other one) ?_ ?_ items
  · exact ordered.imp fun before => by simpa using before
  · intro one middle other before behind
    simp only [Bool.not_eq_true',ranks.not_less_iff] at before behind ⊢
    exact before.trans behind
  · intro one other
    simp only [Bool.or_eq_true,Bool.not_eq_true',ranks.not_less_iff]
    exact le_total _ _

theorem Sorted.ranks_ordered (ranks : Ranks rank less) (result : Sorted less items sorted) :
    (sorted.map rank).Pairwise (· ≤ ·) :=
  List.pairwise_map.mpr (result.ordered.imp fun before => (ranks.not_less_iff _ _).mp before)

theorem Sorted.ranks_eq (ranks : Ranks rank less) (one : Sorted less items sorted)
    (other : Sorted less others reordered) (same : (items.map rank).Perm (others.map rank)) :
    sorted.map rank = reordered.map rank :=
  List.Perm.eq_of_pairwise (fun _ _ _ _ => le_antisymm) (one.ranks_ordered ranks) (other.ranks_ordered ranks)
    (((one.perm.map rank).trans same).trans (other.perm.map rank).symm)

theorem Sorted.take_least (result : Sorted less items sorted) (count : Nat) :
    ∀ kept ∈ sorted.take count,∀ dropped ∈ sorted.drop count,less dropped kept = false := by
  have ordered := result.ordered
  rw [← List.take_append_drop count sorted] at ordered
  exact (List.pairwise_append.mp ordered).2.2

end comparisons

section pointwise
variable {related : α → β → Prop} {items : List α} {others : List β}

theorem find_related (same : ∀ one other,related one other → accepts one = accepts' other)
    (all : List.Forall₂ related items others) : Option.Rel related (items.find? accepts) (others.find? accepts') := by
  induction all with
  | nil => exact .none
  | @cons one other rest rest' first behind ih =>
    rw [List.find?_cons,List.find?_cons,same one other first]
    cases accepts' other with
    | true => exact .some first
    | false => exact ih

theorem zipIdx_related (start : Nat) (all : List.Forall₂ related items others) :
    List.Forall₂ (fun one other => related one.1 other.1 ∧ one.2 = other.2) (items.zipIdx start) (others.zipIdx start) := by
  induction all generalizing start with
  | nil => exact .nil
  | cons first behind ih => exact .cons ⟨first,rfl⟩ (ih (start + 1))

end pointwise
end EvmRelay.Ranking
