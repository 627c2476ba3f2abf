import EvmRelay.RpcManager

namespace EvmRelay.Rpc
open Ranking RpcEndpointPool

theorem text_lt_iff {one other : Text} : one.map UInt8.toNat < other.map UInt8.toNat ↔ one < other := by
  induction one generalizing other with
  | nil => cases other <;> simp
  | cons head tail ih =>
    cases other with
    | nil => simp
    | cons head' tail' => simp [List.cons_lt_cons_iff,ih,UInt8.lt_iff_toNat_lt,UInt8.toNat_inj]

theorem text_map_inj {one other : Text} : one.map UInt8.toNat = other.map UInt8.toNat ↔ one = other :=
  (List.map_injective_iff.mpr fun _ _ => UInt8.toNat_inj.mp).eq_iff

theorem text_ranks (text : α → Text) : Ranks (fun item => (text item).map UInt8.toNat) fun one other => text one < text other := by
  intro one other
  rw [decide_eq_true_iff,text_lt_iff]

theorem word_ranks (word : α → BitVec width) : Ranks (fun item => (word item).toNat) fun one other => word one < word other := by
  intro one other
  rw [decide_eq_true_iff,BitVec.lt_def]

-- What endpoint_less compares, the heavier weight first.
def endpointRank (endpoint : RpcEndpoint) : Nat ×ₗ Natᵒᵈ ×ₗ List Nat ×ₗ Nat ×ₗ List Nat :=
  toLex (endpoint.priority.toNat,toLex (OrderDual.toDual endpoint.weight.toNat,
    toLex (endpoint.chainName.map UInt8.toNat,toLex (endpoint.chainId.toNat,endpoint.url.map UInt8.toNat))))

theorem endpointLess_ranks : Ranks endpointRank endpointLess := by
  have weight : Ranks (fun endpoint : RpcEndpoint => OrderDual.toDual endpoint.weight.toNat)
      fun one other => decide (one.weight > other.weight) := by
    intro one other
    rw [decide_eq_true_iff,OrderDual.toDual_lt_toDual,gt_iff_lt,BitVec.lt_def]
  refine (word_ranks RpcEndpoint.priority).lex (fun _ _ => ?_) (weight.lex (fun _ _ => ?_)
    ((text_ranks RpcEndpoint.chainName).lex (fun _ _ => ?_) ((word_ranks RpcEndpoint.chainId).lex (fun _ _ => ?_)
      (text_ranks RpcEndpoint.url))))
  · rw [ne_eq,ne_eq,BitVec.toNat_inj]
  · rw [ne_eq,ne_eq,OrderDual.toDual_inj,BitVec.toNat_inj]
  · rw [ne_eq,ne_eq,text_map_inj]
  · rw [ne_eq,ne_eq,BitVec.toNat_inj]

def groupRank (group : RpcEndpointGroup) : List Nat ×ₗ Nat ×ₗ Nat :=
  toLex (group.chainName.map UInt8.toNat,toLex (group.chainId.toNat,group.endpoints.length))

theorem groupLess_ranks : Ranks groupRank groupLess := by
  have size : Ranks (fun group : RpcEndpointGroup => group.endpoints.length)
      fun one other => decide (one.endpoints.length < other.endpoints.length) := fun _ _ => decide_eq_true_iff
  refine (text_ranks RpcEndpointGroup.chainName).lex (fun _ _ => ?_) ((word_ranks RpcEndpointGroup.chainId).lex (fun _ _ => ?_) size)
  · rw [ne_eq,ne_eq,text_map_inj]
  · rw [ne_eq,ne_eq,BitVec.toNat_inj]

def StdSort.merge : StdSort where
  endpoints := fun items => items.mergeSort fun one other => !endpointLess other one
  groups := fun items => items.mergeSort fun one other => !groupLess other one
  sortsEndpoints := mergeSort_sorts endpointLess_ranks
  sortsGroups := mergeSort_sorts groupLess_ranks

instance : Inhabited StdSort := ⟨StdSort.merge⟩

structure Selected (config : RpcManagerConfig) (all kept : List RpcEndpoint) : Prop where
  ordered : kept.Pairwise fun one other => endpointLess other one = false
  least : ∃ dropped,(kept ++ dropped).Perm all ∧ ∀ one ∈ kept,∀ other ∈ dropped,endpointLess other one = false
  count : kept.length = if config.maxEndpointsPerChain = 0 then all.length else min config.maxEndpointsPerChain.toNat all.length

-- next_endpoint finds a least endpoint among the usable ones, each looked at
-- with its own reading of the clock.
def Chooses (clock : Nat → TimePoint) (pool : RpcEndpointPool) : Prop :=
  match nextEndpoint clock pool with
  | none => ∀ place other,pool.endpoints[place]? = some other → isUsable (clock place) other = false
  | some (endpoint,position) =>
    pool.endpoints[position]? = some endpoint ∧ isUsable (clock position) endpoint = true ∧
    ∀ place other,pool.endpoints[place]? = some other → isUsable (clock place) other = true → endpointLess other endpoint = false

-- Two endpoints endpoint_less does not tell apart, in the same state.
structure Alike (one other : RpcEndpoint) : Prop where
  notLess : endpointLess one other = false
  notGreater : endpointLess other one = false
  state : one.state = other.state
  lastFailureTime : one.lastFailureTime = other.lastFailureTime
  failureCount : one.failureCount = other.failureCount
  backoffUntil : one.backoffUntil = other.backoffUntil

-- Two pools that no sequence of calls tells apart, but for endpoints that
-- endpoint_less does not.
def Indistinct (one other : RpcEndpointPool) : Prop :=
  ∀ overshift operations clock,
    List.Forall₂ Alike (run overshift one operations).endpoints (run overshift other operations).endpoints ∧
    Option.Rel (fun found found' => Alike found.1 found'.1 ∧ found.2 = found'.2)
      (nextEndpoint clock (run overshift one operations)) (nextEndpoint clock (run overshift other operations))

section selection
variable {endpoint : RpcEndpoint}

theorem trim_eq_take (endpoints : List RpcEndpoint) : trim config endpoints =
    endpoints.take (if config.maxEndpointsPerChain = 0 then endpoints.length else config.maxEndpointsPerChain.toNat) := by
  unfold trim
  by_cases all : config.maxEndpointsPerChain = 0
  · simp [all]
  · simp only [all,not_false_eq_true,ne_eq,true_and,if_false]
    split_ifs with few
    · rfl
    · exact (List.take_of_length_le (Nat.le_of_not_lt few)).symm

theorem selected (sort : StdSort) (all : List RpcEndpoint) :
    Selected config all (RpcEndpointPool.new sort.endpoints (trim config (sort.endpoints all))).endpoints := by
  have sorted := sort.sortsEndpoints all
  have again := sort.sortsEndpoints (trim config (sort.endpoints all))
  unfold RpcEndpointPool.new
  refine ⟨again.ordered,?_,?_⟩
  · rw [trim_eq_take] at again ⊢
    generalize (if config.maxEndpointsPerChain = 0 then (sort.endpoints all).length else config.maxEndpointsPerChain.toNat) = count
      at again ⊢
    refine ⟨(sort.endpoints all).drop count,?_,?_⟩
    · have joined := again.perm.append_right ((sort.endpoints all).drop count)
      rw [List.take_append_drop] at joined
      exact joined.trans sorted.perm
    · intro kept member
      exact sorted.take_least count kept (again.perm.mem_iff.mp member)
  · rw [again.perm.length_eq,trim_eq_take,List.length_take,sorted.perm.length_eq]
    split
    · exact Nat.min_self _
    · rfl

theorem visits_rank : endpointRank (visits overshift endpoint operations) = endpointRank endpoint :=
  visits_keep (fun _ _ => rfl) (fun _ => rfl) fun _ => rfl

theorem visits_less : endpointLess (visits overshift one operations) (visits overshift other operations) = endpointLess one other := by
  rw [Bool.eq_iff_iff,endpointLess_ranks,endpointLess_ranks,visits_rank,visits_rank]

theorem run_ordered (ordered : pool.endpoints.Pairwise fun one other => endpointLess other one = false) :
    (run overshift pool operations).endpoints.Pairwise fun one other => endpointLess other one = false := by
  rw [run_endpoints,List.pairwise_map]
  exact ordered.imp fun before => visits_less.trans before

theorem chooses (ordered : pool.endpoints.Pairwise fun one other => endpointLess other one = false) : Chooses clock pool := by
  unfold Chooses
  split
  · rename_i none
    intro place other member
    have unusable := List.find?_eq_none.mp none _ (List.mk_mem_zipIdx_iff_getElem?.mpr member)
    simpa using unusable
  · rename_i endpoint position next
    obtain ⟨usable,place,inside,there,earlier⟩ := List.find?_eq_some_iff_getElem.mp next
    rw [List.length_zipIdx] at inside
    rw [List.getElem_zipIdx,Nat.zero_add,Prod.mk.injEq] at there
    obtain ⟨rfl,rfl⟩ := there
    refine ⟨List.getElem?_eq_getElem inside,usable,fun position other member ready => ?_⟩
    obtain ⟨short,rfl⟩ := List.getElem?_eq_some_iff.mp member
    rcases Nat.lt_trichotomy position place with before | rfl | behind
    · have unusable := earlier position before
      rw [List.getElem_zipIdx,Nat.zero_add,ready] at unusable
      exact absurd unusable Bool.false_ne_true
    · exact (endpointLess_ranks.not_less_iff _ _).mpr le_rfl
    · exact List.pairwise_iff_getElem.mp ordered place position inside short behind

theorem tied_iff : (endpointLess one other = false ∧ endpointLess other one = false) ↔ endpointRank one = endpointRank other := by
  rw [endpointLess_ranks.not_less_iff,endpointLess_ranks.not_less_iff,and_comm]
  exact antisymm_iff

theorem Alike.rank (alike : Alike one other) : endpointRank one = endpointRank other := tied_iff.mp ⟨alike.notLess,alike.notGreater⟩

theorem Alike.url (alike : Alike one other) : one.url = other.url := by
  have ranks := alike.rank
  unfold endpointRank at ranks
  simp only [EmbeddingLike.apply_eq_iff_eq,Prod.mk.injEq] at ranks
  exact text_map_inj.mp ranks.2.2.2.2

theorem Alike.usable (alike : Alike one other) (now : TimePoint) : isUsable now one = isUsable now other := by
  unfold isUsable
  rw [alike.state,alike.backoffUntil]

theorem Alike.visit (alike : Alike one other) (operation : Operation) :
    Alike (operation.visit overshift one) (operation.visit overshift other) := by
  have ranks : endpointRank (operation.visit overshift one) = endpointRank (operation.visit overshift other) := by
    have kept := fun endpoint => @visits_rank endpoint overshift [operation]
    exact (kept one).trans (alike.rank.trans (kept other).symm)
  obtain ⟨notLess,notGreater⟩ := tied_iff.mpr ranks
  cases operation with
  | markTemporaryFailure now url =>
    have counted : one.countedAt now = other.countedAt now := by
      unfold RpcEndpoint.countedAt
      rw [alike.failureCount,alike.lastFailureTime]
    refine ⟨notLess,notGreater,?_,?_,?_,?_⟩
    all_goals
      simp only [Operation.visit,alike.url]
      split
    all_goals simp only [RpcEndpoint.markFailed,counted,alike.state,alike.lastFailureTime,alike.failureCount,alike.backoffUntil]
  | disable url =>
    refine ⟨notLess,notGreater,?_,?_,?_,?_⟩
    all_goals
      simp only [Operation.visit,alike.url]
      split
    all_goals simp only [RpcEndpoint.disabled,alike.state,alike.lastFailureTime,alike.failureCount,alike.backoffUntil]
  | resetTemporaryFailures =>
    refine ⟨notLess,notGreater,?_,?_,?_,?_⟩
    all_goals
      simp only [Operation.visit,alike.state]
      split
    all_goals simp only [RpcEndpoint.recovered,alike.state,alike.lastFailureTime,alike.failureCount,alike.backoffUntil]

theorem Alike.visits (alike : Alike one other) : Alike (visits overshift one operations) (visits overshift other operations) := by
  induction operations using List.reverseRecOn with
  | nil => exact alike
  | append_singleton operations operation ih =>
    rw [visits_snoc,visits_snoc]
    exact ih.visit operation

theorem indistinct (alike : List.Forall₂ Alike pool.endpoints reordered.endpoints) : Indistinct pool reordered := by
  intro overshift operations clock
  have after : List.Forall₂ Alike (run overshift pool operations).endpoints (run overshift reordered operations).endpoints := by
    rw [run_endpoints,run_endpoints,List.forall₂_map_left_iff,List.forall₂_map_right_iff]
    exact alike.imp fun _ _ same => same.visits
  refine ⟨after,find_related ?_ (zipIdx_related 0 after)⟩
  intro found found' ⟨same,position⟩
  rw [position]
  exact same.usable _

end selection

section candidates

theorem mem_candidates_iff : endpoint ∈ candidates getenv envLookup configs chainName chainId ↔
    ∃ config ∈ configs,(config.chainName = chainName ∧ config.chainId = chainId) ∧
      buildRpcEndpoint getenv config envLookup = .ok endpoint := by
  unfold candidates
  rw [List.mem_filterMap]
  refine exists_congr fun config => ?_
  rw [List.mem_filter,decide_eq_true_iff,and_assoc]
  cases buildRpcEndpoint getenv config envLookup <;> simp [Except.toOption]

theorem candidates_ne_nil_iff : candidates getenv envLookup configs chainName chainId ≠ [] ↔
    ∃ config ∈ configs,config.chainName = chainName ∧ config.chainId = chainId ∧
      (renderRpcEndpointUrl getenv config envLookup).isOk = true := by
  rw [← List.length_pos_iff,List.length_pos_iff_exists_mem]
  simp only [mem_candidates_iff]
  rw [exists_comm]
  refine exists_congr fun config => ?_
  unfold buildRpcEndpoint
  cases renderRpcEndpointUrl getenv config envLookup with
  | error error => simp [Except.isOk,Except.toBool,bind,Except.bind]
  | ok url => simp [Except.isOk,Except.toBool,bind,Except.bind,pure,Except.pure]

structure Fresh (endpoint : RpcEndpoint) : Prop where
  state : endpoint.state = .kAvailable
  lastFailureTime : endpoint.lastFailureTime = 0
  failureCount : endpoint.failureCount = 0
  backoffUntil : endpoint.backoffUntil = 0

theorem candidates_fresh (member : endpoint ∈ candidates getenv envLookup configs chainName chainId) : Fresh endpoint := by
  obtain ⟨config,_,_,built⟩ := mem_candidates_iff.mp member
  unfold buildRpcEndpoint at built
  cases rendered : renderRpcEndpointUrl getenv config envLookup with
  | error error =>
    rw [rendered] at built
    exact absurd built nofun
  | ok url =>
    rw [rendered] at built
    cases built
    exact ⟨rfl,rfl,rfl,rfl⟩

theorem candidates_perm (perm : reordered.Perm configs) :
    (candidates getenv envLookup reordered chainName chainId).Perm (candidates getenv envLookup configs chainName chainId) :=
  (perm.filter _).filterMap _

end candidates

theorem selection_ranks (sort sort' : StdSort)
    (limit : reordered.maxEndpointsPerChain = config.maxEndpointsPerChain) (perm : others.Perm all) :
    (sort.endpoints (trim config (sort.endpoints all))).map endpointRank =
      (sort'.endpoints (trim reordered (sort'.endpoints others))).map endpointRank := by
  have first := (sort.sortsEndpoints all).ranks_eq endpointLess_ranks (sort'.sortsEndpoints others) (perm.symm.map endpointRank)
  refine (sort.sortsEndpoints _).ranks_eq endpointLess_ranks (sort'.sortsEndpoints _) (List.Perm.of_eq ?_)
  have length : (sort.endpoints all).length = (sort'.endpoints others).length := by
    simpa using congrArg List.length first
  rw [trim_eq_take,trim_eq_take,List.map_take,List.map_take,first,length,limit]

theorem alike_of_ranks (same : kept.map endpointRank = kept'.map endpointRank)
    (fresh : ∀ endpoint ∈ kept,Fresh endpoint) (fresh' : ∀ endpoint ∈ kept',Fresh endpoint) : List.Forall₂ Alike kept kept' := by
  induction kept generalizing kept' with
  | nil =>
    rw [List.map_eq_nil_iff.mp same.symm]
    exact .nil
  | cons one rest ih =>
    obtain ⟨other,rest',rfl,rank,ranks⟩ := List.map_eq_cons_iff.mp same.symm
    have tied := tied_iff.mpr rank.symm
    have new := fresh one List.mem_cons_self
    have new' := fresh' other List.mem_cons_self
    refine .cons ⟨tied.1,tied.2,?_,?_,?_,?_⟩ (ih ranks.symm (fun endpoint member => fresh endpoint (List.mem_cons_of_mem _ member))
      fun endpoint member => fresh' endpoint (List.mem_cons_of_mem _ member))
    · rw [new.state,new'.state]
    · rw [new.lastFailureTime,new'.lastFailureTime]
    · rw [new.failureCount,new'.failureCount]
    · rw [new.backoffUntil,new'.backoffUntil]

theorem Selected.fresh (selected : Selected config all kept)
    (fresh : ∀ endpoint ∈ all,Fresh endpoint) : ∀ endpoint ∈ kept,Fresh endpoint := by
  intro endpoint member
  obtain ⟨dropped,perm,_⟩ := selected.least
  exact fresh endpoint (perm.mem_iff.mp (List.mem_append_left _ member))

-- A manager has a pool for exactly the chains with an endpoint that renders,
-- and chooses a least usable one. The order of the configuration shows among
-- endpoints of one rank only.
theorem endpoint_selection (sort : StdSort) (getenv : Text → Option Text) (config : RpcManagerConfig) (envLookup : RpcEnvLookup) :
    (∀ chainName chainId,
      ((∃ pool,(RpcManager.new sort getenv config envLookup).pool chainName chainId = some pool) ↔
        ∃ endpoint ∈ config.endpoints,endpoint.chainName = chainName ∧ endpoint.chainId = chainId ∧
          (renderRpcEndpointUrl getenv endpoint envLookup).isOk = true) ∧
      ∀ pool,(RpcManager.new sort getenv config envLookup).pool chainName chainId = some pool →
        Selected config (candidates getenv envLookup config.endpoints chainName chainId) pool.endpoints ∧
        ∀ overshift operations clock,Chooses clock (RpcEndpointPool.run overshift pool operations)) ∧
    (∀ sort' reordered chainName chainId,reordered.endpoints.Perm config.endpoints →
      reordered.maxEndpointsPerChain = config.maxEndpointsPerChain →
      Option.Rel Indistinct ((RpcManager.new sort getenv config envLookup).pool chainName chainId)
        ((RpcManager.new sort' getenv reordered envLookup).pool chainName chainId)) ∧
    ∀ chainName chainId other otherId,chainKey chainName chainId = chainKey other otherId ↔ chainName = other ∧ chainId = otherId := by
  refine ⟨fun chainName chainId => ?_,fun sort' reordered chainName chainId perm limit => ?_,fun _ _ _ _ => chainKey_inj⟩
  · rw [← candidates_ne_nil_iff,RpcManager.pool_eq]
    split
    · rename_i none
      exact ⟨iff_of_false nofun (fun some => some none),nofun⟩
    · rename_i some
      refine ⟨iff_of_true ⟨_,rfl⟩ some,fun pool found => ?_⟩
      cases found
      have kept : Selected config _ _ := selected sort (candidates getenv envLookup config.endpoints chainName chainId)
      exact ⟨kept,fun overshift operations clock => chooses (run_ordered kept.ordered)⟩
  · have same : (candidates getenv envLookup reordered.endpoints chainName chainId).Perm
        (candidates getenv envLookup config.endpoints chainName chainId) := candidates_perm perm
    rw [RpcManager.pool_eq,RpcManager.pool_eq]
    by_cases none : candidates getenv envLookup config.endpoints chainName chainId = []
    · rw [if_pos none,if_pos (none ▸ same).eq_nil]
      exact .none
    have none' : candidates getenv envLookup reordered.endpoints chainName chainId ≠ [] :=
      fun empty => none (empty ▸ same).symm.eq_nil
    rw [if_neg none,if_neg none']
    refine .some (indistinct (alike_of_ranks (selection_ranks sort sort' limit same) ?_ ?_))
    · exact (selected sort _).fresh fun endpoint member => candidates_fresh member
    · exact (selected sort' _).fresh fun endpoint member => candidates_fresh member

end EvmRelay.Rpc
