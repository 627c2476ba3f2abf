import Mathlib.Algebra.Group.Nat.Defs
import Mathlib.Data.List.Pairwise
import Mathlib.Data.List.Induction

namespace EvmRelay

-- Items under numbers that are given out one after the other.
structure Tickets (α : Type u) where
  entries : List (Nat × α)
  issued : Nat
  sorted : entries.Pairwise fun one other => one.1 < other.1
  below : ∀ entry ∈ entries,entry.1 < issued

namespace Tickets
variable {α : Type u} {β : Type v} {w n m : Nat} {item : α} {tickets : Tickets α}

def empty : Tickets α := ⟨[],0,.nil,fun _ member => absurd member List.not_mem_nil⟩

-- The id that a number is known by: a counter of w bits that starts at 1.
def ticket (w n : Nat) : BitVec w := BitVec.ofNat w (n + 1)

theorem ticket_succ (w : Nat) : ticket w (n + 1) = ticket w n + 1#w := BitVec.ofNat_add ..

theorem ticket_inj (one : n < 2 ^ w) (other : m < 2 ^ w) (same : ticket w n = ticket w m) : n = m := by
  have early : BitVec.ofNat w n = BitVec.ofNat w m := by
    rw [ticket,ticket,BitVec.ofNat_add,BitVec.ofNat_add] at same
    exact BitVec.add_left_inj _ |>.mp same
  have values := congrArg BitVec.toNat early
  rwa [BitVec.toNat_ofNat,BitVec.toNat_ofNat,Nat.mod_eq_of_lt one,Nat.mod_eq_of_lt other] at values

def issue (tickets : Tickets α) (item : α) : Tickets α where
  entries := tickets.entries ++ [(tickets.issued,item)]
  issued := tickets.issued + 1
  sorted := List.pairwise_append.mpr ⟨tickets.sorted,List.pairwise_singleton _ _,fun entry member last single => by
    rw [List.mem_singleton.mp single]
    exact tickets.below entry member⟩
  below := fun entry member => by
    rcases List.mem_append.mp member with old | single
    · exact Nat.lt_succ_of_lt (tickets.below entry old)
    · rw [List.mem_singleton.mp single]
      exact Nat.lt_succ_self _

def revoke (tickets : Tickets α) (id : BitVec w) : Tickets α where
  entries := tickets.entries.filter fun entry => ticket w entry.1 ≠ id
  issued := tickets.issued
  sorted := tickets.sorted.filter _
  below := fun entry member => tickets.below entry (List.mem_filter.mp member).1

theorem issue_entries : (tickets.issue item).entries = tickets.entries ++ [(tickets.issued,item)] := rfl

theorem revoke_entries (id : BitVec w) :
    (tickets.revoke id).entries = tickets.entries.filter fun entry => ticket w entry.1 ≠ id := rfl

theorem mem_issue : (n,item) ∈ (tickets.issue new).entries ↔ (n,item) ∈ tickets.entries ∨ n = tickets.issued ∧ item = new := by
  rw [issue_entries,List.mem_append,List.mem_singleton,Prod.mk.injEq]

theorem mem_revoke {id : BitVec w} : (n,item) ∈ (tickets.revoke id).entries ↔ (n,item) ∈ tickets.entries ∧ ticket w n ≠ id := by
  rw [revoke_entries,List.mem_filter,decide_eq_true_iff]

theorem find_own (few : tickets.issued ≤ 2 ^ w) (member : (n,item) ∈ tickets.entries) :
    tickets.entries.find? (fun entry => decide (ticket w entry.1 = ticket w n)) = some (n,item) := by
  obtain ⟨front,back,split⟩ := List.append_of_mem member
  have sorted := tickets.sorted
  rw [split] at sorted
  refine List.find?_eq_some_iff_append.mpr ⟨decide_eq_true rfl,front,back,split,fun entry before => ?_⟩
  have smaller := (List.pairwise_append.mp sorted).2.2 entry before (n,item) List.mem_cons_self
  have inside := tickets.below (n,item) member
  rw [Bool.not_eq_true',decide_eq_false_iff_not]
  intro same
  have equal := ticket_inj (Nat.lt_of_lt_of_le (Nat.lt_trans smaller inside) few) (Nat.lt_of_lt_of_le inside few) same
  omega

theorem revoke_own (few : tickets.issued ≤ 2 ^ w) (member : (n,item) ∈ tickets.entries) :
    ∃ front back,tickets.entries = front ++ (n,item) :: back ∧ (tickets.revoke (ticket w n)).entries = front ++ back := by
  obtain ⟨front,back,split⟩ := List.append_of_mem member
  refine ⟨front,back,split,?_⟩
  have sorted := tickets.sorted
  rw [split] at sorted
  obtain ⟨_,rest,across⟩ := List.pairwise_append.mp sorted
  have other (entry : Nat × α) (listed : entry ∈ tickets.entries) (different : entry.1 ≠ n) :
      decide (ticket w entry.1 ≠ ticket w n) = true := by
    refine decide_eq_true fun same => different ?_
    exact ticket_inj (Nat.lt_of_lt_of_le (tickets.below entry listed) few) (Nat.lt_of_lt_of_le (tickets.below _ member) few) same
  have before : front.filter (fun entry => decide (ticket w entry.1 ≠ ticket w n)) = front := by
    refine List.filter_eq_self.mpr fun entry inside => other entry ?_ (Nat.ne_of_lt (across entry inside _ List.mem_cons_self))
    rw [split]
    exact List.mem_append_left _ inside
  have after : back.filter (fun entry => decide (ticket w entry.1 ≠ ticket w n)) = back := by
    refine List.filter_eq_self.mpr fun entry inside => other entry ?_ (Nat.ne_of_gt ((List.pairwise_cons.mp rest).1 entry inside))
    rw [split]
    exact List.mem_append_right _ (List.mem_cons_of_mem _ inside)
  rw [revoke_entries,split,List.filter_append,List.filter_cons_of_neg (by simp),before,after]

theorem split_snoc (split : items ++ [last] = front ++ item :: back) :
    (back = [] ∧ item = last ∧ front = items) ∨ ∃ rest,back = rest ++ [last] ∧ items = front ++ item :: rest := by
  cases back using List.reverseRecOn with
  | nil =>
    obtain ⟨rfl,single⟩ := List.append_inj' split rfl
    cases single
    exact Or.inl ⟨rfl,rfl,rfl⟩
  | append_singleton rest final =>
    rw [← List.cons_append,← List.append_assoc] at split
    obtain ⟨rfl,single⟩ := List.append_inj' split rfl
    cases single
    exact Or.inr ⟨rest,rfl,rfl⟩

inductive Change (w : Nat) (α : Type u) where
  | issue (item : α)
  | revoke (id : BitVec w)

def apply (tickets : Tickets α) : Change w α → Tickets α
  | .issue item => tickets.issue item
  | .revoke id => tickets.revoke id

def replay (changes : List (Change w α)) : Tickets α := changes.foldl apply empty

def isIssue : Change w α → Bool
  | .issue _ => true
  | .revoke _ => false

section history
variable {changes : List (Change w α)}

theorem replay_snoc (changes : List (Change w α)) (change : Change w α) :
    replay (changes ++ [change]) = (replay changes).apply change := List.foldl_append

theorem replay_issued (changes : List (Change w α)) : (replay changes).issued = changes.countP isIssue := by
  induction changes using List.reverseRecOn with
  | nil => rfl
  | append_singleton changes change ih =>
    rw [replay_snoc,List.countP_append]
    cases change with
    | issue item => exact congrArg (· + 1) ih
    | revoke id => exact ih

def Held (changes : List (Change w α)) (n : Nat) (item : α) : Prop :=
  ∃ before after,changes = before ++ .issue item :: after ∧ before.countP isIssue = n ∧ .revoke (ticket w n) ∉ after

theorem held_snoc : Held (changes ++ [change]) n item ↔
    (Held changes n item ∧ change ≠ .revoke (ticket w n)) ∨ (change = .issue item ∧ n = changes.countP isIssue) := by
  constructor
  · rintro ⟨before,after,split,number,kept⟩
    rcases split_snoc split with ⟨rfl,rfl,rfl⟩ | ⟨rest,rfl,earlier⟩
    · exact Or.inr ⟨rfl,number.symm⟩
    · rw [List.mem_append,not_or,List.mem_singleton] at kept
      exact Or.inl ⟨⟨before,rest,earlier,number,kept.1⟩,fun same => kept.2 same.symm⟩
  · rintro (⟨⟨before,after,rfl,number,kept⟩,other⟩ | ⟨rfl,rfl⟩)
    · refine ⟨before,after ++ [change],by simp,number,?_⟩
      rw [List.mem_append,not_or,List.mem_singleton]
      exact ⟨kept,fun same => other same.symm⟩
    · exact ⟨changes,[],rfl,rfl,List.not_mem_nil⟩

theorem mem_replay (changes : List (Change w α)) (n : Nat) (item : α) :
    (n,item) ∈ (replay changes).entries ↔ Held changes n item := by
  induction changes using List.reverseRecOn with
  | nil =>
    refine ⟨fun member => absurd member List.not_mem_nil,fun held => ?_⟩
    obtain ⟨before,after,split,_⟩ := held
    simp at split
  | append_singleton changes change ih =>
    rw [replay_snoc,held_snoc,← ih,← replay_issued]
    cases change with
    | issue new =>
      rw [apply,mem_issue,Change.issue.injEq]
      refine or_congr ?_ ⟨fun same => ⟨same.2.symm,same.1⟩,fun same => ⟨same.2,same.1.symm⟩⟩
      exact ⟨fun member => ⟨member,nofun⟩,fun kept => kept.1⟩
    | revoke id =>
      rw [apply,mem_revoke]
      refine ⟨fun kept => Or.inl ⟨kept.1,fun same => ?_⟩,fun held => ?_⟩
      · cases same
        exact kept.2 rfl
      · rcases held with ⟨member,other⟩ | ⟨same,_⟩
        · exact ⟨member,fun same => other (by rw [same])⟩
        · cases same

end history

theorem eraseP_eq_filter {items : List β} (once : items.Pairwise fun one other => ¬ (wanted one ∧ wanted other)) :
    items.eraseP wanted = items.filter fun item => !wanted item := by
  induction items with
  | nil => rfl
  | cons first rest ih =>
    obtain ⟨alone,once⟩ := List.pairwise_cons.mp once
    cases found : wanted first with
    | false => rw [List.eraseP_cons_of_neg (by simp [found]),List.filter_cons_of_pos (by simp [found]),ih once]
    | true =>
      rw [List.eraseP_cons_of_pos found,List.filter_cons_of_neg (by simp [found])]
      refine (List.filter_eq_self.mpr fun other member => ?_).symm
      have others := alone other member
      simp [found] at others
      simp [others]

end Tickets
end EvmRelay
