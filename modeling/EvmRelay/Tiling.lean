import Mathlib.Data.List.Basic

namespace EvmRelay

-- Pieces of the natural numbers, each given by its first and last member, laid
-- one behind the other from `next` up to, but not including, `stop`.
def Tiles : Nat → List (Nat × Nat) → Nat → Prop
  | next,[],stop => next = stop
  | next,piece :: rest,stop => piece.1 = next ∧ piece.1 ≤ piece.2 ∧ Tiles (piece.2 + 1) rest stop

namespace Tiles

theorem append (left : Tiles first front middle) (right : Tiles middle back stop) : Tiles first (front ++ back) stop := by
  induction front generalizing first with
  | nil =>
    cases left
    exact right
  | cons piece rest ih =>
    obtain ⟨starts,ordered,behind⟩ := left
    exact ⟨starts,ordered,ih behind⟩

theorem one (ordered : first ≤ last) : Tiles first [(first,last)] (last + 1) :=
  ⟨rfl,ordered,rfl⟩

theorem ordered (tiles : Tiles first pieces stop) : first ≤ stop := by
  induction pieces generalizing first with
  | nil => exact Nat.le_of_eq tiles
  | cons piece rest ih =>
    obtain ⟨starts,ordered,behind⟩ := tiles
    have reach := ih behind
    omega

theorem bounds (tiles : Tiles first pieces stop) : ∀ piece ∈ pieces,first ≤ piece.1 ∧ piece.1 ≤ piece.2 ∧ piece.2 < stop := by
  induction pieces generalizing first with
  | nil =>
    intro piece member
    cases member
  | cons head rest ih =>
    obtain ⟨starts,ordered,behind⟩ := tiles
    have reach := behind.ordered
    intro piece member
    rcases List.mem_cons.mp member with rfl | later
    · omega
    · have inside := ih behind piece later
      omega

theorem covers (tiles : Tiles first pieces stop) (member : Nat) :
    (first ≤ member ∧ member < stop) ↔ ∃ piece ∈ pieces,piece.1 ≤ member ∧ member ≤ piece.2 := by
  induction pieces generalizing first with
  | nil =>
    cases tiles
    simp
  | cons piece rest ih =>
    obtain ⟨starts,ordered,behind⟩ := tiles
    have reach := behind.ordered
    have later := ih behind
    simp only [List.mem_cons,exists_eq_or_imp,← later]
    omega

theorem disjoint (tiles : Tiles first pieces stop) : pieces.Pairwise (fun earlier later => earlier.2 < later.1) := by
  induction pieces generalizing first with
  | nil => exact List.Pairwise.nil
  | cons piece rest ih =>
    obtain ⟨_,_,behind⟩ := tiles
    apply List.Pairwise.cons _ (ih behind)
    intro later member
    exact (behind.bounds later member).1

end Tiles
end EvmRelay
