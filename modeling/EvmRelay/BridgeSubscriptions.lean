import EvmRelay.EventDispatch

namespace EvmRelay.EthReceiptSourceBridge
open Tickets EthWatchService

def Operation.adds : Operation κ → Bool
  | .watchEvent _ => true
  | .addFilter _ => true
  | .unwatch _ => false
  | .processReceipts _ => false
  | .serviceWatchEvent _ => false
  | .serviceUnwatch _ => false
  | .removeFilter _ => false

def added (operations : List (Operation κ)) : Nat := operations.countP Operation.adds

-- The registration with number n was made through the bridge, which added filter m for it;
-- no later operation has put an end to it.
def Since (ends : Operation κ → Prop) (operations : List (Operation κ)) (n m : Nat) (own : Registration κ) : Prop :=
  ∃ before after,operations = before ++ .watchEvent own :: after ∧ registered before = n ∧ added before = m ∧
    ∀ later ∈ after,¬ ends later

def Bridged (operations : List (Operation κ)) (n m : Nat) (own : Registration κ) : Prop :=
  Since (fun later => later = .unwatch (ticket 32 n)) operations n m own

def Filtered (operations : List (Operation κ)) (n m : Nat) (own : Registration κ) : Prop :=
  Since (fun later => later = .unwatch (ticket 32 n) ∨ later = .removeFilter (ticket 32 m)) operations n m own

theorem since_snoc : Since ends (operations ++ [operation]) n m own ↔ (Since ends operations n m own ∧ ¬ ends operation) ∨
      (operation = .watchEvent own ∧ n = registered operations ∧ m = added operations) := by
  constructor
  · rintro ⟨before,after,split,number,filter,kept⟩
    rcases split_snoc split with ⟨rfl,same,rfl⟩ | ⟨rest,rfl,earlier⟩
    · exact Or.inr ⟨same.symm,number.symm,filter.symm⟩
    · exact Or.inl ⟨⟨before,rest,earlier,number,filter,fun later member => kept later (List.mem_append_left _ member)⟩,
        kept operation (List.mem_append_right _ List.mem_cons_self)⟩
  · rintro (⟨⟨before,after,rfl,number,filter,kept⟩,goes⟩ | ⟨rfl,rfl,rfl⟩)
    · refine ⟨before,after ++ [operation],by simp,number,filter,fun later member => ?_⟩
      rcases List.mem_append.mp member with old | single
      · exact kept later old
      · rw [List.mem_singleton.mp single]
        exact goes
    · exact ⟨operations,[],rfl,rfl,rfl,fun _ member => absurd member List.not_mem_nil⟩

theorem Filtered.bridged (filtered : Filtered operations n m own) : Bridged operations n m own := by
  obtain ⟨before,after,split,number,filter,kept⟩ := filtered
  exact ⟨before,after,split,number,filter,fun later member same => kept later member (Or.inl same)⟩

theorem registered_snoc_le : registered operations ≤ registered (operations ++ [operation]) :=
  ((List.sublist_append_left operations [operation]).filterMap _).countP_le

theorem added_snoc : added (operations ++ [operation]) = added operations + if operation.adds then 1 else 0 := by
  rw [added,List.countP_append,List.countP_singleton]
  rfl

-- The bridge and the source in terms of the numbers: the filters that the source holds,
-- and which registration the bridge has which of them for.
structure Linked (keccak256 : List UInt8 → Hash256) (operations : List (Operation κ)) (bridge : EthReceiptSourceBridge κ)
    (filters : Tickets EventFilter) (links : List (Nat × Nat)) : Prop where
  subscriptions : bridge.subscriptions = links.map fun link => ⟨ticket 32 link.1,ticket 32 link.2⟩
  held : bridge.source.filters = filters.entries.map fun entry => ⟨ticket 32 entry.1,entry.2⟩
  nextWatchId : bridge.source.nextWatchId = ticket 32 filters.issued
  issued : filters.issued = added operations
  ordered : links.Pairwise fun one other => one.1 < other.1 ∧ one.2 < other.2
  below : ∀ link ∈ links,link.1 < registered operations ∧ link.2 < added operations
  linked : ∀ n m,(n,m) ∈ links ↔ ∃ own,Bridged operations n m own
  filtered : ∀ n m own,Filtered operations n m own → (m,own.filter keccak256) ∈ filters.entries

section links
variable
  {bridge after : EthReceiptSourceBridge κ}

theorem new_linked (service : EthWatchService κ) (source : Rpc.RpcReceiptSource) (none : source.filters = []) (first : source.nextWatchId = 1#32) :
    Linked keccak256 [] (.new service source) empty [] where
  subscriptions := rfl
  held := none
  nextWatchId := first
  issued := rfl
  ordered := .nil
  below := fun _ member => absurd member List.not_mem_nil
  linked := fun n m => ⟨fun member => absurd member List.not_mem_nil,fun ⟨own,_,_,split,_⟩ => by simp at split⟩
  filtered := fun n m own ⟨_,_,split,_⟩ => by simp at split

section linked
variable (linked : Linked keccak256 operations bridge filters links)
include linked

theorem Linked.apart (first : one ∈ links) (second : other ∈ links) (different : one ≠ other) :
    one.1 ≠ other.1 ∧ one.2 ≠ other.2 := by
  have : Std.Symm fun one other : Nat × Nat => one.1 ≠ other.1 ∧ one.2 ≠ other.2 := ⟨fun _ _ apart => ⟨apart.1.symm,apart.2.symm⟩⟩
  have distinct : links.Pairwise fun one other => one.1 ≠ other.1 ∧ one.2 ≠ other.2 :=
    linked.ordered.imp fun before => ⟨Nat.ne_of_lt before.1,Nat.ne_of_lt before.2⟩
  exact distinct.forall first second different

theorem Linked.same (few : registered operations ≤ 2 ^ 32) (first : one ∈ links) (second : other ∈ links)
    (id : ticket 32 one.1 = ticket 32 other.1) : one = other := by
  by_contra different
  exact (linked.apart first second different).1
    (ticket_inj (Nat.lt_of_lt_of_le (linked.below one first).1 few) (Nat.lt_of_lt_of_le (linked.below other second).1 few) id)

theorem Linked.find (id : WatchId) : bridge.subscriptions.find? (fun sub => decide (sub.serviceId = id)) =
    (links.find? fun link => decide (ticket 32 link.1 = id)).map fun link => ⟨ticket 32 link.1,ticket 32 link.2⟩ := by
  rw [linked.subscriptions,List.find?_map]
  rfl

theorem Linked.find_own (few : registered operations ≤ 2 ^ 32) (member : (n,m) ∈ links) :
    bridge.subscriptions.find? (fun sub => decide (sub.serviceId = ticket 32 n)) = some ⟨ticket 32 n,ticket 32 m⟩ := by
  rw [linked.find]
  cases found : links.find? fun link => decide (ticket 32 link.1 = ticket 32 n) with
  | none => exact absurd (List.find?_eq_none.mp found (n,m) member) (by simp)
  | some link =>
    have id : ticket 32 link.1 = ticket 32 n := by simpa using List.find?_some found
    rw [linked.same few (List.mem_of_find?_eq_some found) member id]
    rfl

theorem Linked.erase (few : registered operations ≤ 2 ^ 32) (id : WatchId) :
    bridge.subscriptions.eraseP (fun sub => decide (sub.serviceId = id)) =
      (links.filter fun link => ticket 32 link.1 ≠ id).map fun link => ⟨ticket 32 link.1,ticket 32 link.2⟩ := by
  have once : links.Pairwise fun one other => ¬ (decide (ticket 32 one.1 = id) ∧ decide (ticket 32 other.1 = id)) := by
    refine List.Pairwise.imp_of_mem ?_ linked.ordered
    rintro one other first second before ⟨left,right⟩
    have same := linked.same few first second ((of_decide_eq_true left).trans (of_decide_eq_true right).symm)
    rw [same] at before
    exact Nat.lt_irrefl _ before.1
  rw [linked.subscriptions,List.eraseP_map]
  show (links.eraseP fun link => decide (ticket 32 link.1 = id)).map _ = _
  rw [eraseP_eq_filter once]
  simp only [decide_not]

theorem Linked.below_snoc (member : link ∈ links) :
    link.1 < registered (operations ++ [operation]) ∧ link.2 < added (operations ++ [operation]) := by
  obtain ⟨number,filter⟩ := linked.below link member
  refine ⟨Nat.lt_of_lt_of_le number registered_snoc_le,?_⟩
  rw [added_snoc]
  exact Nat.lt_add_right _ filter

theorem Linked.held_issue (filter : EventFilter) :
    (bridge.source.addFilter filter).2.filters = (filters.issue filter).entries.map (fun entry => ⟨ticket 32 entry.1,entry.2⟩) ∧
    (bridge.source.addFilter filter).2.nextWatchId = ticket 32 (filters.issue filter).issued := by
  constructor
  · show bridge.source.filters ++ [⟨bridge.source.nextWatchId,_⟩] = _
    rw [linked.held,linked.nextWatchId,issue_entries,List.map_append]
    rfl
  · show bridge.source.nextWatchId + 1#32 = _
    rw [linked.nextWatchId]
    exact (ticket_succ 32).symm

theorem Linked.held_revoke (id : WatchId) :
    (bridge.source.removeFilter id).filters = (filters.revoke id).entries.map (fun entry => ⟨ticket 32 entry.1,entry.2⟩) := by
  show bridge.source.filters.filter _ = _
  rw [linked.held,List.filter_map]
  rfl

theorem Linked.other (subscriptions : after.subscriptions = bridge.subscriptions) (source : after.source = bridge.source)
    (adds : operation.adds = false) (unwatch : ∀ id,operation ≠ .unwatch id) (remove : ∀ id,operation ≠ .removeFilter id) :
    Linked keccak256 (operations ++ [operation]) after filters links := by
  have same : added (operations ++ [operation]) = added operations := by rw [added_snoc,adds]; rfl
  have watch (own : Registration κ) : operation ≠ .watchEvent own := by
    rintro rfl
    cases adds
  refine ⟨subscriptions.trans linked.subscriptions,?_,?_,linked.issued.trans same.symm,linked.ordered,fun _ => linked.below_snoc,
    fun n m => ?_,fun n m own filtered => ?_⟩
  · rw [source,linked.held]
  · rw [source,linked.nextWatchId]
  · rw [linked.linked]
    refine exists_congr fun own => ?_
    rw [Bridged,Bridged,since_snoc]
    exact ⟨fun bridged => Or.inl ⟨bridged,unwatch _⟩,fun either => either.elim And.left fun new => absurd new.1 (watch own)⟩
  · rcases since_snoc.mp filtered with ⟨earlier,_⟩ | ⟨new,_⟩
    · exact linked.filtered n m own earlier
    · exact absurd new (watch own)

theorem Linked.watchEvent (lockstep : Lockstep keccak256 (live operations) bridge.service) (own : Registration κ) :
    Linked keccak256 (operations ++ [.watchEvent own]) (bridge.watchEvent keccak256 own).2 (filters.issue (own.filter keccak256))
      (links ++ [(registered operations,added operations)]) := by
  have number : registered (operations ++ [.watchEvent own]) = registered operations + 1 := by
    rw [← live_issued,live_change rfl,← live_issued]
    rfl
  have filter : added (operations ++ [.watchEvent own]) = added operations + 1 := added_snoc
  have serviceId : bridge.service.nextId = ticket 32 (registered operations) := by rw [lockstep.nextId,live_issued]
  have sourceId : bridge.source.nextWatchId = ticket 32 (added operations) := by rw [linked.nextWatchId,linked.issued]
  obtain ⟨held,nextWatchId⟩ := linked.held_issue (own.filter keccak256)
  refine ⟨?_,held,nextWatchId,?_,?_,fun link member => ?_,fun n m => ?_,fun n m other filtered => ?_⟩
  · show bridge.subscriptions ++ [⟨bridge.service.nextId,bridge.source.nextWatchId⟩] = _
    rw [linked.subscriptions,serviceId,sourceId,List.map_append]
    rfl
  · rw [filter,← linked.issued]
    rfl
  · refine List.pairwise_append.mpr ⟨linked.ordered,List.pairwise_singleton _ _,fun link member last single => ?_⟩
    rw [List.mem_singleton.mp single]
    exact linked.below link member
  · rcases List.mem_append.mp member with old | single
    · exact linked.below_snoc old
    · rw [List.mem_singleton.mp single,number,filter]
      exact ⟨Nat.lt_succ_self _,Nat.lt_succ_self _⟩
  · simp only [Bridged,since_snoc,List.mem_append,List.mem_singleton,Prod.mk.injEq,linked.linked]
    constructor
    · rintro (⟨other,bridged⟩ | ⟨rfl,rfl⟩)
      · exact ⟨other,Or.inl ⟨bridged,nofun⟩⟩
      · exact ⟨own,Or.inr ⟨rfl,rfl,rfl⟩⟩
    · rintro ⟨other,⟨bridged,_⟩ | ⟨_,rfl,rfl⟩⟩
      · exact Or.inl ⟨other,bridged⟩
      · exact Or.inr ⟨rfl,rfl⟩
  · rcases since_snoc.mp filtered with ⟨earlier,_⟩ | ⟨same,_,rfl⟩
    · exact mem_issue.mpr (Or.inl (linked.filtered n m other earlier))
    · cases same
      exact mem_issue.mpr (Or.inr ⟨linked.issued.symm,rfl⟩)

theorem Linked.unwatch (few : registered operations ≤ 2 ^ 32) (fewFilters : added operations ≤ 2 ^ 32) (id : WatchId) :
    ∃ filters links,Linked keccak256 (operations ++ [.unwatch id]) (bridge.unwatch id) filters links := by
  have same : added (operations ++ [.unwatch id]) = added operations := added_snoc
  have bridged (n m : Nat) : (∃ own,Bridged (operations ++ [.unwatch id]) n m own) ↔ (n,m) ∈ links ∧ ticket 32 n ≠ id := by
    simp only [Bridged,since_snoc,reduceCtorEq,false_and,or_false,exists_and_right,Operation.unwatch.injEq,linked.linked]
    exact and_congr_right' ⟨fun other => Ne.symm other,fun other => Ne.symm other⟩
  have earlier {n m : Nat} {own : Registration κ} (filtered : Filtered (operations ++ [.unwatch id]) n m own) :
      Filtered operations n m own ∧ ticket 32 n ≠ id := by
    rcases since_snoc.mp filtered with ⟨filtered,goes⟩ | ⟨new,_⟩
    · exact ⟨filtered,fun equal => goes (Or.inl (by rw [equal]))⟩
    · cases new
  unfold EthReceiptSourceBridge.unwatch
  rw [linked.find]
  cases found : links.find? fun link => decide (ticket 32 link.1 = id) with
  | none =>
    have other (link : Nat × Nat) (member : link ∈ links) : ticket 32 link.1 ≠ id := by
      simpa using List.find?_eq_none.mp found link member
    refine ⟨filters,links,linked.subscriptions,linked.held,linked.nextWatchId,linked.issued.trans same.symm,linked.ordered,
      fun _ => linked.below_snoc,fun n m => ?_,fun n m own filtered => linked.filtered n m own (earlier filtered).1⟩
    rw [bridged]
    exact ⟨fun member => ⟨member,other _ member⟩,And.left⟩
  | some link =>
    have member := List.mem_of_find?_eq_some found
    have own : ticket 32 link.1 = id := by simpa using List.find?_some found
    refine ⟨filters.revoke (ticket 32 link.2),links.filter fun link => ticket 32 link.1 ≠ id,linked.erase few id,
      linked.held_revoke _,linked.nextWatchId,linked.issued.trans same.symm,linked.ordered.filter _,
      fun _ member => linked.below_snoc (List.mem_filter.mp member).1,fun n m => ?_,fun n m other filtered => ?_⟩
    · rw [bridged,List.mem_filter,decide_eq_true_iff]
    · obtain ⟨filtered,different⟩ := earlier filtered
      have second := (linked.linked n m).mpr ⟨other,filtered.bridged⟩
      have apart := linked.apart second member fun equal => different (by rw [← own,← equal])
      refine mem_revoke.mpr ⟨linked.filtered n m other filtered,fun equal => apart.2 ?_⟩
      exact ticket_inj (Nat.lt_of_lt_of_le (linked.below _ second).2 fewFilters) (Nat.lt_of_lt_of_le (linked.below _ member).2 fewFilters) equal

theorem Linked.addFilter (filter : EventFilter) :
    Linked keccak256 (operations ++ [.addFilter filter]) { bridge with source := (bridge.source.addFilter filter).2 } (filters.issue filter)
      links := by
  have next : added (operations ++ [.addFilter filter]) = added operations + 1 := added_snoc
  obtain ⟨held,nextWatchId⟩ := linked.held_issue filter
  refine ⟨linked.subscriptions,held,nextWatchId,?_,linked.ordered,fun _ => linked.below_snoc,fun n m => ?_,fun n m own filtered => ?_⟩
  · rw [next,← linked.issued]
    rfl
  · simp [Bridged,since_snoc,linked.linked]
  · rcases since_snoc.mp filtered with ⟨earlier,_⟩ | ⟨new,_⟩
    · exact mem_issue.mpr (Or.inl (linked.filtered n m own earlier))
    · cases new

theorem Linked.removeFilter (id : WatchId) :
    Linked keccak256 (operations ++ [.removeFilter id]) { bridge with source := bridge.source.removeFilter id } (filters.revoke id) links := by
  have same : added (operations ++ [.removeFilter id]) = added operations := added_snoc
  refine ⟨linked.subscriptions,linked.held_revoke id,linked.nextWatchId,linked.issued.trans same.symm,linked.ordered,
    fun _ => linked.below_snoc,fun n m => ?_,fun n m own filtered => ?_⟩
  · simp [Bridged,since_snoc,linked.linked]
  · rcases since_snoc.mp filtered with ⟨earlier,goes⟩ | ⟨new,_⟩
    · exact mem_revoke.mpr ⟨linked.filtered n m own earlier,fun equal => goes (Or.inr (by rw [equal]))⟩
    · cases new

theorem Linked.removes_own (few : registered operations ≤ 2 ^ 32) (fewFilters : added operations ≤ 2 ^ 32)
    (filtered : Filtered operations n m own) :
    ∃ front back,bridge.source.filters = front ++ ⟨ticket 32 m,own.filter keccak256⟩ :: back ∧
      (bridge.unwatch (ticket 32 n)).source.filters = front ++ back := by
  have member := (linked.linked n m).mpr ⟨own,filtered.bridged⟩
  obtain ⟨front,back,split,rest⟩ := revoke_own (w := 32) (by rw [linked.issued]; exact fewFilters) (linked.filtered n m own filtered)
  refine ⟨front.map fun entry => ⟨ticket 32 entry.1,entry.2⟩,back.map fun entry => ⟨ticket 32 entry.1,entry.2⟩,?_,?_⟩
  · rw [linked.held,split,List.map_append,List.map_cons]
  · unfold EthReceiptSourceBridge.unwatch
    rw [linked.find_own few member]
    rw [← List.map_append,← rest]
    exact linked.held_revoke _

theorem Linked.leaves_others (id : WatchId) (none : ∀ n m own,Bridged operations n m own → ticket 32 n ≠ id) :
    (bridge.unwatch id).source = bridge.source := by
  have missing : (links.find? fun link => decide (ticket 32 link.1 = id)) = Option.none := by
    refine List.find?_eq_none.mpr fun link member => ?_
    obtain ⟨own,bridged⟩ := (linked.linked link.1 link.2).mp member
    simpa using none link.1 link.2 own bridged
  unfold EthReceiptSourceBridge.unwatch
  rw [linked.find,missing]
  rfl

end linked

theorem perform_linked (lockstep : Lockstep keccak256 (live operations) bridge.service)
    (linked : Linked keccak256 operations bridge filters links) (few : registered operations ≤ 2 ^ 32) (fewFilters : added operations ≤ 2 ^ 32)
    (ran : (bridge.perform keccak256 operation).outcome = .ok after) :
    ∃ filters links,Linked keccak256 (operations ++ [operation]) after filters links := by
  cases operation with
  | watchEvent own =>
    cases ran
    exact ⟨_,_,linked.watchEvent lockstep own⟩
  | unwatch id =>
    cases ran
    exact linked.unwatch few fewFilters id
  | processReceipts batch =>
    obtain ⟨service,_,ended⟩ := Emitting.outcome_bind.mp ran
    cases ended
    exact ⟨_,_,linked.other rfl rfl rfl nofun nofun⟩
  | addFilter filter =>
    cases ran
    exact ⟨_,_,linked.addFilter filter⟩
  | removeFilter id =>
    cases ran
    exact ⟨_,_,linked.removeFilter id⟩
  | _ =>
    cases ran
    exact ⟨_,_,linked.other rfl rfl rfl nofun nofun⟩

theorem added_take (operations : List (Operation κ)) (k : Nat) : added (operations.take k) ≤ added operations :=
  (List.take_sublist k operations).countP_le

theorem run_linked (lockstep : Lockstep keccak256 empty bridge.service) (linked : Linked keccak256 [] bridge empty [])
    (few : registered operations ≤ 2 ^ 32) (fewFilters : added operations ≤ 2 ^ 32)
    (ran : (bridge.run keccak256 operations).outcome = .ok after) : ∃ filters links,Linked keccak256 operations after filters links := by
  have reached := Emitting.loop_invariant
    (fun k (bridge : EthReceiptSourceBridge κ) => Lockstep keccak256 (live (operations.take k)) bridge.service ∧
      ∃ filters links,Linked keccak256 (operations.take k) bridge filters links)
    ⟨lockstep,_,_,linked⟩ ?_ ran
  · obtain ⟨_,filters,links,linked⟩ := reached
    rw [List.take_length] at linked
    exact ⟨filters,links,linked⟩
  · rintro k before operation next found ⟨lockstep,filters,links,linked⟩ ran
    refine ⟨take_lockstep found lockstep ran,?_⟩
    rw [List.take_add_one,found]
    exact perform_linked lockstep linked (Nat.le_trans (registered_take operations k) few)
      (Nat.le_trans (added_take operations k) fewFilters) ran

end links

def fresh (finalityPolicy : FinalityPolicy) (lastProcessedBlock maxLogRange : BitVec 64) : EthReceiptSourceBridge κ :=
  .new .new (.new finalityPolicy lastProcessedBlock maxLogRange)

section dispatch
variable (keccak256 : List UInt8 → Hash256) (finalityPolicy : FinalityPolicy) (lastProcessedBlock maxLogRange : BitVec 64)
  (operations : List (Operation κ))

def Dispatches : Prop :=
  ∀ made,made ∈ ((fresh finalityPolicy lastProcessedBlock maxLogRange).run keccak256 operations).events ↔ Due keccak256 operations made

-- No call is due behind a place where decode_log leaves the data of a log.
def Undisturbed : Prop := ∀ place made,Leaves keccak256 operations place → Due keccak256 operations made → ¬ Earlier place made

theorem run_completes (few : registered operations ≤ 2 ^ 32) :
    ((fresh finalityPolicy lastProcessedBlock maxLogRange : EthReceiptSourceBridge κ).run keccak256 operations).Completes ↔
      ∀ place,¬ Leaves keccak256 operations place := by
  unfold run
  rw [Emitting.loop_completes_at
    (fun k (operation : Operation κ) => ∀ batch place,operation = .processReceipts batch →
      ¬ LeavesIn keccak256 (live (operations.take k)).entries batch place)
    (fun k (bridge : EthReceiptSourceBridge κ) => Lockstep keccak256 (live (operations.take k)) bridge.service)
    (fun k bridge operation lockstep => perform_completes lockstep (by
      rw [live_issued]
      exact Nat.le_trans (registered_take operations k) few)) new_lockstep
    (fun k before operation after found lockstep ran => take_lockstep found lockstep ran)]
  constructor
  · rintro stays ⟨k,place⟩ ⟨batch,found,leaves⟩
    exact stays k _ found batch place rfl leaves
  · rintro stays k _ found batch place rfl leaves
    exact stays (k,place) ⟨batch,found,leaves⟩

-- Every call that is due is made, once and in order, exactly if no fault of
-- decode_log comes before it; and with no more filters than ids the bridge
-- takes back the filter it has added.
theorem events_dispatched_iff (few : registered operations ≤ 2 ^ 32) :
    (∀ k n own,(n,own) ∈ (live (operations.take k)).entries ↔ Held (changes (operations.take k)) n own) ∧
    ((fresh finalityPolicy lastProcessedBlock maxLogRange).run keccak256 operations).events.Pairwise InOrder ∧
    (Dispatches keccak256 finalityPolicy lastProcessedBlock maxLogRange operations ↔ Undisturbed keccak256 operations) ∧
    (added operations ≤ 2 ^ 32 → ∀ bridge,
      ((fresh finalityPolicy lastProcessedBlock maxLogRange).run keccak256 operations).outcome = .ok bridge →
      (∀ n m own,Filtered operations n m own → ∃ front back,
        bridge.source.filters = front ++ ⟨ticket 32 m,own.filter keccak256⟩ :: back ∧
        (bridge.unwatch (ticket 32 n)).source.filters = front ++ back) ∧
      ∀ id,(∀ n m own,Bridged operations n m own → ticket 32 n ≠ id) → (bridge.unwatch id).source = bridge.source) := by
  refine ⟨fun k n own => mem_replay _ n own,run_ordered keccak256 _ operations,?_,fun fewFilters bridge ran => ?_⟩
  · have calls (made : Nat × Nat × Nat × Nat × Call κ) :
        made ∈ ((fresh finalityPolicy lastProcessedBlock maxLogRange).run keccak256 operations).events ↔
          Due keccak256 operations made ∧ ∀ place,Earlier place made → ¬ Leaves keccak256 operations place :=
      mem_run new_lockstep few made
    constructor
    · intro dispatches place made leaves due earlier
      exact ((calls made).mp ((dispatches made).mpr due)).2 place earlier leaves
    · intro undisturbed made
      rw [calls]
      exact ⟨And.left,fun due => ⟨due,fun place earlier leaves => undisturbed place made leaves due earlier⟩⟩
  · obtain ⟨filters,links,linked⟩ := run_linked new_lockstep (new_linked _ _ rfl rfl) few fewFilters ran
    exact ⟨fun n m own filtered => linked.removes_own few fewFilters filtered,fun id none => linked.leaves_others id none⟩

end dispatch

def transferRegistration : Registration Unit :=
  ⟨tokenContract,transferSignature,⟨[⟨.kAddress,true⟩,⟨.kAddress,true⟩,⟨.kUint,false⟩],Abi.three_params_fit⟩,(),none,none⟩

def transferRun : List (Operation Unit) :=
  [.addFilter ⟨[],[],none,none⟩,.watchEvent transferRegistration,.processReceipts (transferBatch consecutiveIndices),.unwatch 1#32,
    .processReceipts (transferBatch consecutiveIndices)]

theorem transfers_dispatched : Dispatches transferKeccak ⟨true,true,0#64⟩ 0#64 1#64 transferRun ∧
    (((fresh ⟨true,true,0#64⟩ 0#64 1#64).run transferKeccak transferRun).events.map fun made => (made.1,made.2.2.1)) = [(2,0),(2,1)] := by
  have few : registered transferRun ≤ 2 ^ 32 := by decide
  refine ⟨(events_dispatched_iff transferKeccak ⟨true,true,0#64⟩ 0#64 1#64 transferRun few).2.2.1.mpr ?_,by decide +kernel⟩
  have ends : ((fresh ⟨true,true,0#64⟩ 0#64 1#64).run transferKeccak transferRun).Completes := by
    have ran : ((fresh ⟨true,true,0#64⟩ 0#64 1#64).run transferKeccak transferRun).outcome.toOption.isSome = true := by decide +kernel
    exact ⟨_,ended_get ran (fresh ⟨true,true,0#64⟩ 0#64 1#64)⟩
  exact fun place made leaves _ _ => (run_completes transferKeccak _ _ _ transferRun few).mp ends place leaves

def noteSignature : List UInt8 := ascii "Note(string)"

def noteTopic : Hash256 :=
  .ofNat 32 0xa274a9958297875ddcaa01ef5d7855baca2caf4a9f0aee26d717a4e2a490b6a2

def noteKeccak (bytes : List UInt8) : Hash256 := if bytes = noteSignature then noteTopic else transferKeccak bytes

def noteRegistration : Registration Unit := ⟨tokenContract,noteSignature,⟨[⟨.kString,false⟩],by decide⟩,(),none,none⟩

def noteLog (length : Nat) : LogEntry where
  address := tokenContract
  topics := .singleton noteTopic
  data := ⟨BigEndian.fixed 32 32 ++ BigEndian.fixed 32 length,by
    rw [List.length_append,BigEndian.fixed_length,BigEndian.fixed_length]
    decide⟩

def noteBatch (logs : StdVector LogEntry) : ReceiptBatch where
  receipts := .singleton (.withStatus true logs)
  txHashes := .singleton (List.Vector.replicate 32 0x20)
  logIndices := .empty
  blockNumber := 100#64
  blockHash := List.Vector.replicate 32 0x30

def noteCall (j : Nat) : Call Unit :=
  ⟨(),⟨noteLog 0,100#64,List.Vector.replicate 32 0x30,List.Vector.replicate 32 0x20,BitVec.ofNat 32 j⟩,[.string []]⟩

theorem note_due {entries : List (Nat × Registration Unit)} (registered : entries[s]? = some (n,noteRegistration))
    (listed : logs.items[j]? = some (noteLog 0)) : DueIn noteKeccak entries (noteBatch logs) (0,j,s,noteCall j) := by
  have topic : (noteLog 0).topics.items[0]? = some (Abi.eventSignatureHash noteKeccak noteSignature) := by decide +kernel
  have decoded : Abi.decodeLog noteKeccak (noteLog 0) noteSignature noteRegistration.params = .ok [.string []] := by decide +kernel
  refine ⟨noteRegistration,⟨⟨n,registered⟩,⟨_,rfl,listed⟩,rfl,rfl,rfl,?_,nofun,nofun,Or.inr rfl,topic⟩,decoded,rfl⟩
  exact (BitVec.zero_add _).symm

-- The first note announces 2^64 - 64 bytes, and where they end wraps to 0.
def wildRun : List (Operation Unit) :=
  [.serviceWatchEvent noteRegistration,.processReceipts (noteBatch ⟨[noteLog (2 ^ 64 - 64),noteLog 0],by decide⟩)]

-- One registration stays while 2^32 - 1 others come and go; then the next one has its id.
def rounds (count : Nat) : List (Operation Unit) :=
  (List.range count).flatMap fun k => [.serviceWatchEvent transferRegistration,.serviceUnwatch (ticket 32 (k + 1))]

def wrappedPast (count : Nat) : List (Operation Unit) :=
  .serviceWatchEvent transferRegistration :: rounds count ++ [.serviceWatchEvent noteRegistration]

def wrappedRun (count : Nat) : List (Operation Unit) := wrappedPast count ++ [.processReceipts (noteBatch (.singleton (noteLog 0)))]

theorem rounds_live (few : count < 2 ^ 32) :
    (live (.serviceWatchEvent transferRegistration :: rounds count)).entries = [(0,transferRegistration)] ∧
      (live (.serviceWatchEvent transferRegistration :: rounds count)).issued = count + 1 := by
  induction count with
  | zero => exact ⟨rfl,rfl⟩
  | succ count ih =>
    obtain ⟨entries,issued⟩ := ih (by omega)
    have longer : .serviceWatchEvent transferRegistration :: rounds (count + 1) =
        .serviceWatchEvent transferRegistration :: rounds count ++ [.serviceWatchEvent transferRegistration] ++
          [.serviceUnwatch (ticket 32 (count + 1))] := by
      simp [rounds,List.range_succ]
    have other : ticket 32 0 ≠ ticket 32 (count + 1) := fun same => absurd (ticket_inj (by decide) few same) (by omega)
    rw [longer,live_change rfl,live_change rfl]
    refine ⟨?_,congrArg (· + 1) issued⟩
    show (Tickets.revoke (Tickets.issue _ _) _).entries = _
    rw [revoke_entries,issue_entries,entries,issued]
    simp [other]

theorem wrappedPast_live (count : Nat) (few : count < 2 ^ 32) :
    (live (wrappedPast count)).entries = [(0,transferRegistration),(count + 1,noteRegistration)] ∧
      (live (wrappedPast count)).issued = count + 2 := by
  obtain ⟨entries,issued⟩ := rounds_live few
  rw [wrappedPast,live_change rfl]
  refine ⟨?_,congrArg (· + 1) issued⟩
  show (Tickets.issue _ _).entries = _
  rw [issue_entries,entries,issued]
  rfl

theorem wrappedPast_silent (count : Nat) (batch : ReceiptBatch) : .processReceipts batch ∉ wrappedPast count := by
  simp [wrappedPast,rounds]

theorem wrappedRun_batch (found : (wrappedRun count)[k]? = some (.processReceipts batch)) :
    k = (wrappedPast count).length ∧ batch = noteBatch (.singleton (noteLog 0)) := by
  rcases Nat.lt_trichotomy k (wrappedPast count).length with before | rfl | behind
  · rw [wrappedRun,List.getElem?_append_left before] at found
    exact absurd (List.mem_of_getElem? found) (wrappedPast_silent count batch)
  · rw [wrappedRun,List.getElem?_concat_length] at found
    cases found
    exact ⟨rfl,rfl⟩
  · have inside := (List.getElem?_eq_some_iff.mp found).1
    rw [wrappedRun,List.length_append,List.length_singleton] at inside
    omega

theorem wrappedRun_past : (wrappedRun count).take (wrappedPast count).length = wrappedPast count := List.take_left

theorem wrapped_undisturbed (few : count < 2 ^ 32) : Undisturbed noteKeccak (wrappedRun count) := by
  rintro ⟨k,i,j,s⟩ made ⟨batch,found,own,event,seen,left⟩
  obtain ⟨rfl,rfl⟩ := wrappedRun_batch found
  obtain ⟨n,registered⟩ := seen.registered
  rw [wrappedRun_past,(wrappedPast_live count few).1] at registered
  obtain ⟨receipt,receiptFound,logFound⟩ := seen.listed
  have log : event.log = noteLog 0 := by
    cases List.mem_singleton.mp (List.mem_of_getElem? receiptFound)
    exact List.mem_singleton.mp (List.mem_of_getElem? logFound)
  rw [log] at left
  rcases List.mem_pair.mp (List.mem_of_getElem? registered) with same | same
  · cases same
    have topic := seen.fits.topic
    rw [log] at topic
    exact absurd topic (by decide +kernel)
  · cases same
    exact absurd left (by decide +kernel)

theorem wrapped_missed (count : Nat) (full : count + 1 = 2 ^ 32) :
    ¬ Dispatches noteKeccak ⟨true,true,0#64⟩ 0#64 1#64 (wrappedRun count) := by
  intro dispatches
  have entries := (wrappedPast_live count (by omega)).1
  have due : Due noteKeccak (wrappedRun count) ((wrappedPast count).length,0,0,1,noteCall 0) := by
    refine ⟨_,List.getElem?_concat_length,?_⟩
    rw [wrappedRun_past,entries]
    exact note_due rfl rfl
  obtain ⟨k,operation,before,same,found,ended,member⟩ := Emitting.mem_loop.mp ((dispatches _).mpr due)
  rw [Nat.zero_add] at same
  subst same
  have lockstep :=
    Emitting.loop_reached (fun k (bridge : EthReceiptSourceBridge Unit) => Lockstep noteKeccak (live ((wrappedRun count).take k)) bridge.service)
      new_lockstep (fun k before operation after found lockstep ran => take_lockstep found lockstep ran) found ended
  rw [wrappedRun_past] at lockstep
  obtain ⟨batch,rfl,called⟩ := (mem_perform _).mp member
  obtain ⟨_,rfl⟩ := wrappedRun_batch found
  obtain ⟨receipt,txHash,log,own,values,delivered,made⟩ := (mem_processReceipts ..).mp called
  obtain ⟨sub,subFound,_,lookup⟩ := delivered.subFound
  obtain ⟨entry,registered,rfl⟩ := lockstep.watched_at.mp subFound
  rw [entries] at registered
  cases registered
  have id : ticket 32 (count + 1) = ticket 32 0 := by
    rw [full]
    decide
  have first : before.service.find (ticket 32 (count + 1)) = some (subscribed (0,transferRegistration)) := by
    rw [EthWatchService.find,lockstep.subscriptions,entries,id]
    rfl
  cases Option.some.inj (first.symm.trans lookup)
  cases delivered.receiptFound
  cases delivered.logFound
  have refused : (Abi.decodeLog noteKeccak (noteLog 0) transferSignature transferRegistration.params).isOk = false := by decide +kernel
  cases (congrArg Except.isOk delivered.decoded).symm.trans refused

theorem notes_not_dispatched : (registered wildRun ≤ 2 ^ 32 ∧ ¬ Dispatches noteKeccak ⟨true,true,0#64⟩ 0#64 1#64 wildRun) ∧
    registered (wrappedRun (2 ^ 32 - 1)) = 2 ^ 32 + 1 ∧ Undisturbed noteKeccak (wrappedRun (2 ^ 32 - 1)) ∧
      ¬ Dispatches noteKeccak ⟨true,true,0#64⟩ 0#64 1#64 (wrappedRun (2 ^ 32 - 1)) := by
  refine ⟨⟨by decide,fun dispatches => ?_⟩,?_,wrapped_undisturbed (by decide),wrapped_missed _ (by decide)⟩
  · have due : Due noteKeccak wildRun (1,0,1,0,noteCall 1) := ⟨_,rfl,note_due rfl rfl⟩
    have member := (dispatches _).mpr due
    exact absurd member List.not_mem_nil
  · rw [← live_issued,wrappedRun,live_same rfl,(wrappedPast_live _ (by decide)).2]
    rfl

end EvmRelay.EthReceiptSourceBridge
