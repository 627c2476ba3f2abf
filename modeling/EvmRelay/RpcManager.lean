import EvmRelay.RpcEndpointPool

namespace EvmRelay.Rpc
open ParseUtility Ranking

structure RpcEndpointConfig where
  chainName : Text
  chainId : BitVec 64
  urlTemplate : Text
  apiKeyEnvVar : Option Text
  apiKeyLiteral : Option Text
  priority : BitVec 32
  weight : BitVec 32
  rateLimitPerSecond : BitVec 32
  isPaid : Bool
  isPublic : Bool
  verified : Bool

structure RpcManagerConfig where
  maxEndpointsPerChain : BitVec 64
  endpoints : List RpcEndpointConfig

inductive RpcEndpointErrorCode where
  | kMissingApiKey
  | kInvalidTemplate
  deriving DecidableEq

structure RpcEndpointError where
  code : RpcEndpointErrorCode
  detail : Text
  deriving DecidableEq

structure RpcEndpointGroup where
  chainName : Text
  chainId : BitVec 64
  endpoints : List RpcEndpoint

-- A std::function, which may be empty.
abbrev RpcEnvLookup := Option (Text → Option Text)

-- The name reaches getenv as a C string.
def defaultEnvLookup (getenv : Text → Option Text) (name : Text) : Option Text := getenv (name.takeWhile (· ≠ 0))

def placeholder : Text := ascii "\x7bkey\x7d"

-- std::string::find: where the pattern first starts at pos or behind it.
def find (text pattern : Text) (pos : Nat) : Option Nat :=
  (List.range' pos (text.length + 1 - pos)).find? fun start => pattern.isPrefixOf (text.drop start)

theorem find_bounds (found : find text pattern pos = some start) : pos ≤ start ∧ start + pattern.length ≤ text.length := by
  have inside := List.mem_range'_1.mp (List.mem_of_find?_eq_some found)
  have starts := List.find?_some found
  have fits := (List.isPrefixOf_iff_prefix.mp starts).length_le
  rw [List.length_drop] at fits
  omega

def containsKeyPlaceholder (templateText : Text) : Bool := (find templateText placeholder 0).isSome

theorem replaced_shorter (found : find text placeholder pos = some start) :
    (text.take start ++ (key ++ text.drop (start + placeholder.length))).length - (start + key.length) < text.length - pos := by
  have bounds := find_bounds found
  have size : placeholder.length = 5 := rfl
  simp only [List.length_append,List.length_take,List.length_drop]
  omega

def replaceFrom (key templateText : Text) (pos : Nat) : Text :=
  match _found : find templateText placeholder pos with
  | none => templateText
  | some start =>
    replaceFrom key (templateText.take start ++ (key ++ templateText.drop (start + placeholder.length))) (start + key.length)
termination_by templateText.length - pos
decreasing_by exact replaced_shorter _found

def replaceAllKeyPlaceholders (templateText key : Text) : Text := replaceFrom key templateText 0

-- The template read once from left to right, with the key in the place of each
-- placeholder it has itself.
def expanded (key templateText : Text) : Text :=
  match templateText with
  | [] => []
  | c :: rest =>
    if placeholder.isPrefixOf (c :: rest) then key ++ expanded key ((c :: rest).drop placeholder.length)
    else c :: expanded key rest
termination_by templateText.length
decreasing_by
  · rw [List.length_drop,List.length_cons]
    exact Nat.sub_lt (Nat.succ_pos _) (by decide)
  · exact Nat.lt_succ_self _

theorem find_here (starts : placeholder <+: text) : find (front ++ text) placeholder front.length = some front.length := by
  have size : (front ++ text).length + 1 - front.length = text.length + 1 := by simp; omega
  rw [find,size,List.range'_succ]
  simpa using starts

theorem find_later (other : ¬ placeholder <+: c :: rest) :
    find (front ++ c :: rest) placeholder front.length = find (front ++ c :: rest) placeholder (front ++ [c]).length := by
  have size : (front ++ c :: rest).length + 1 - front.length = rest.length + 1 + 1 := by simp; omega
  have less : (front ++ c :: rest).length + 1 - (front ++ [c]).length = rest.length + 1 := by simp
  rw [find,find,size,less,List.range'_succ,List.find?_cons_of_neg,List.length_append,List.length_singleton]
  simpa using other

theorem replaceFrom_none (missing : find templateText placeholder pos = none) : replaceFrom key templateText pos = templateText := by
  unfold replaceFrom
  split
  · rfl
  · rename_i found
    cases missing.symm.trans found

theorem replaceFrom_some (found : find templateText placeholder pos = some start) : replaceFrom key templateText pos =
    replaceFrom key (templateText.take start ++ (key ++ templateText.drop (start + placeholder.length))) (start + key.length) := by
  conv_lhs => unfold replaceFrom
  split
  · rename_i missing
    cases found.symm.trans missing
  · rename_i other
    cases found.symm.trans other
    rfl

theorem replaceFrom_same (same : find templateText placeholder pos = find templateText placeholder other) :
    replaceFrom key templateText pos = replaceFrom key templateText other := by
  cases found : find templateText placeholder pos with
  | none => rw [replaceFrom_none found,replaceFrom_none (same.symm.trans found)]
  | some start => rw [replaceFrom_some found,replaceFrom_some (same.symm.trans found)]

-- The search goes on behind what was put in: in front of `pos` everything is
-- done, and from there on the template is as it was.
theorem replaceFrom_expanded (key front rest : Text) : replaceFrom key (front ++ rest) front.length = front ++ expanded key rest := by
  induction rest using expanded.induct generalizing front with
  | case1 =>
    have missing : find (front ++ []) placeholder front.length = none := by
      simp [find,placeholder,ascii]
    rw [replaceFrom_none missing,expanded]
  | case2 c rest starts ih =>
    obtain ⟨back,text⟩ := List.isPrefixOf_iff_prefix.mp starts
    have behind : (c :: rest).drop placeholder.length = back := by rw [← text,List.drop_left]
    have next := ih (front ++ key)
    rw [behind,List.length_append] at next
    rw [expanded,if_pos starts,replaceFrom_some (find_here ⟨back,text⟩),List.take_left,← List.drop_drop,List.drop_left,behind,
      ← List.append_assoc,next,List.append_assoc]
  | case3 c rest other ih =>
    have next := ih (front ++ [c])
    rw [List.append_assoc,List.append_assoc] at next
    rw [expanded,if_neg other,replaceFrom_same (find_later fun starts => other (List.isPrefixOf_iff_prefix.mpr starts))]
    exact next

section rendering
variable (getenv : Text → Option Text)

def renderRpcEndpointUrl (config : RpcEndpointConfig) (envLookup : RpcEnvLookup) : Except RpcEndpointError Text :=
  let key := match config.apiKeyLiteral,config.apiKeyEnvVar with
    | some key,_ => some key
    | none,some name => (envLookup.getD (defaultEnvLookup getenv)) name
    | none,none => none
  if containsKeyPlaceholder config.urlTemplate then
    match key with
    | none => .error ⟨.kMissingApiKey,
        if config.apiKeyLiteral.isSome then ascii "apiKeyLiteral" else config.apiKeyEnvVar.getD (ascii "urlTemplate")⟩
    | some key => .ok (replaceAllKeyPlaceholders config.urlTemplate key)
  else .ok config.urlTemplate

def buildRpcEndpoint (config : RpcEndpointConfig) (envLookup : RpcEnvLookup) : Except RpcEndpointError RpcEndpoint := do
  let url ← renderRpcEndpointUrl getenv config envLookup
  pure {
    chainName := config.chainName
    chainId := config.chainId
    url := url
    priority := config.priority
    weight := config.weight
    rateLimitPerSecond := config.rateLimitPerSecond
    isPaid := config.isPaid
    isPublic := config.isPublic
    verified := config.verified
    state := .kAvailable
    lastFailureTime := 0
    failureCount := 0
    backoffUntil := 0 }

def KeyGiven (config : RpcEndpointConfig) (envLookup : RpcEnvLookup) (key : Text) : Prop :=
  config.apiKeyLiteral = some key ∨ config.apiKeyLiteral = none ∧
    ∃ name,config.apiKeyEnvVar = some name ∧ (envLookup.getD (defaultEnvLookup getenv)) name = some key

-- Whatever the key looks like, every placeholder of the template is replaced, and
-- nothing that the key brings along or makes up with its surroundings.
theorem rendered_url_expanded (config : RpcEndpointConfig) (envLookup : RpcEnvLookup) (key : Text)
    (given : KeyGiven getenv config envLookup key) :
    renderRpcEndpointUrl getenv config envLookup = .ok (expanded key config.urlTemplate) := by
  have replaced : replaceAllKeyPlaceholders config.urlTemplate key = expanded key config.urlTemplate := replaceFrom_expanded key [] _
  unfold renderRpcEndpointUrl
  by_cases inside : containsKeyPlaceholder config.urlTemplate = true
  · rw [if_pos inside,← replaced]
    rcases given with literal | ⟨none,name,named,found⟩
    · rw [literal]
    · rw [none,named]
      simp only [found]
  · have missing : find config.urlTemplate placeholder 0 = none := by simpa [containsKeyPlaceholder] using inside
    rw [if_neg inside,← replaced,replaceAllKeyPlaceholders,replaceFrom_none missing]

end rendering

def bracedConfig : RpcEndpointConfig where
  chainName := ascii "sepolia"
  chainId := 11155111
  urlTemplate := ascii "\x7b\x7bkey\x7d\x7bkey\x7d"
  apiKeyEnvVar := none
  apiKeyLiteral := some (ascii "key\x7d")
  priority := 0
  weight := 1
  rateLimitPerSecond := 0
  isPaid := false
  isPublic := true
  verified := true

theorem braced_key_not_expanded : KeyGiven (fun _ => none) bracedConfig none (ascii "key\x7d") ∧
    renderRpcEndpointUrl (fun _ => none) bracedConfig none = .ok (ascii "\x7bkey\x7dkey\x7d") := by
  have given : KeyGiven (fun _ => none) bracedConfig none (ascii "key\x7d") := Or.inl rfl
  refine ⟨given,(rendered_url_expanded (fun _ => none) bracedConfig none _ given).trans ?_⟩
  simp [expanded,bracedConfig,placeholder,ascii]

def stdToString (value : BitVec 64) : Text := (Nat.toDigits 10 value.toNat).map fun c => UInt8.ofNat c.toNat

def chainKey (chainName : Text) (chainId : BitVec 64) : Text := chainName ++ (ascii "#" ++ stdToString chainId)

def RpcEndpointGroup.key (group : RpcEndpointGroup) : Text := chainKey group.chainName group.chainId

def groupLess (lhs rhs : RpcEndpointGroup) : Bool :=
  if lhs.chainName ≠ rhs.chainName then lhs.chainName < rhs.chainName
  else if lhs.chainId ≠ rhs.chainId then lhs.chainId < rhs.chainId
  else lhs.endpoints.length < rhs.endpoints.length

-- std::sort at the two types it is used at. It need not be stable.
structure StdSort where
  endpoints : List RpcEndpoint → List RpcEndpoint
  groups : List RpcEndpointGroup → List RpcEndpointGroup
  sortsEndpoints : Sorts endpointLess endpoints
  sortsGroups : Sorts groupLess groups

-- groups[key], made if it is not there, given the endpoint. The order of the
-- std::map is of no account: the groups are sorted afterwards.
def addEndpoint (config : RpcEndpointConfig) (endpoint : RpcEndpoint) : List (Text × RpcEndpointGroup) → List (Text × RpcEndpointGroup)
  | [] => [(chainKey config.chainName config.chainId,⟨config.chainName,config.chainId,[endpoint]⟩)]
  | (key,group) :: rest =>
    if key = chainKey config.chainName config.chainId then
      (key,⟨config.chainName,config.chainId,group.endpoints ++ [endpoint]⟩) :: rest
    else (key,group) :: addEndpoint config endpoint rest

section grouping
variable (sort : StdSort) (getenv : Text → Option Text) (config : RpcManagerConfig) (envLookup : RpcEnvLookup)

def addConfig (groups : List (Text × RpcEndpointGroup)) (endpointConfig : RpcEndpointConfig) : List (Text × RpcEndpointGroup) :=
  match buildRpcEndpoint getenv endpointConfig envLookup with
  | .error _ => groups
  | .ok endpoint => addEndpoint endpointConfig endpoint groups

def trim (endpoints : List RpcEndpoint) : List RpcEndpoint :=
  if config.maxEndpointsPerChain ≠ 0 ∧ config.maxEndpointsPerChain.toNat < endpoints.length then
    endpoints.take config.maxEndpointsPerChain.toNat
  else endpoints

def groupRpcEndpoints : List RpcEndpointGroup :=
  let groups := config.endpoints.foldl (addConfig getenv envLookup) []
  sort.groups (groups.map fun entry => { entry.2 with endpoints := trim config (sort.endpoints entry.2.endpoints) })

end grouping

structure PoolEntry where
  group : RpcEndpointGroup
  pool : RpcEndpointPool

structure RpcManager where
  groups : List RpcEndpointGroup
  pools : List PoolEntry

namespace RpcManager

def new (sort : StdSort) (getenv : Text → Option Text) (config : RpcManagerConfig) (envLookup : RpcEnvLookup) : RpcManager :=
  let groups := groupRpcEndpoints sort getenv config envLookup
  ⟨groups,groups.map fun group => ⟨group,RpcEndpointPool.new sort.endpoints group.endpoints⟩⟩

def pool (manager : RpcManager) (chainName : Text) (chainId : BitVec 64) : Option RpcEndpointPool :=
  (manager.pools.find? fun entry => entry.group.key = chainKey chainName chainId).map PoolEntry.pool

end RpcManager

theorem hash_not_mem_stdToString (value : BitVec 64) : 0x23 ∉ stdToString value := by
  intro member
  obtain ⟨digits,read,_⟩ := toDigits_read 10 (by decide) (by decide) ..
  obtain ⟨front,back,parts⟩ := List.append_of_mem member
  have none : hexNibble 0x23 = none := rfl
  unfold stdToString at parts
  rw [parts,List.mapM_append,List.mapM_cons,none] at read
  simp at read

theorem stdToString_injective : Function.Injective stdToString := by
  intro one other same
  obtain ⟨digits,read,value⟩ := toDigits_read 10 (by decide) (by decide) ..
  obtain ⟨digits',read',value'⟩ := toDigits_read 10 (by decide) (by decide) ..
  have agree : digits = digits' := by
    unfold stdToString at same
    rw [same,read'] at read
    exact (Option.some.inj read).symm
  apply BitVec.eq_of_toNat_eq
  rw [← value,← value',agree]

theorem last_cut {name other id otherId : Text} (plain : separator ∉ id) (otherPlain : separator ∉ otherId)
    (same : name ++ separator :: id = other ++ separator :: otherId) : name = other ∧ id = otherId := by
  rcases List.append_eq_append_iff.mp same with ⟨middle,longer,behind⟩ | ⟨middle,longer,behind⟩
  · cases middle with
    | nil => simp_all
    | cons head tail =>
      rw [List.cons_append,List.cons.injEq] at behind
      exact absurd (behind.2 ▸ List.mem_append_right tail List.mem_cons_self) plain
  · cases middle with
    | nil => simp_all
    | cons head tail =>
      rw [List.cons_append,List.cons.injEq] at behind
      exact absurd (behind.2 ▸ List.mem_append_right tail List.mem_cons_self) otherPlain

theorem chainKey_inj : chainKey chainName chainId = chainKey other otherId ↔ chainName = other ∧ chainId = otherId := by
  constructor
  · intro same
    obtain ⟨name,id⟩ := last_cut (hash_not_mem_stdToString chainId) (hash_not_mem_stdToString otherId) same
    exact ⟨name,stdToString_injective id⟩
  · rintro ⟨rfl,rfl⟩
    rfl

section grouping
variable {groups : List (Text × RpcEndpointGroup)}

def candidates (getenv : Text → Option Text) (envLookup : RpcEnvLookup) (configs : List RpcEndpointConfig) (chainName : Text)
    (chainId : BitVec 64) : List RpcEndpoint :=
  (configs.filter fun config => config.chainName = chainName ∧ config.chainId = chainId).filterMap
    fun config => (buildRpcEndpoint getenv config envLookup).toOption

theorem candidates_snoc :
    candidates getenv envLookup (configs ++ [config]) chainName chainId = candidates getenv envLookup configs chainName chainId ++
      if config.chainName = chainName ∧ config.chainId = chainId then (buildRpcEndpoint getenv config envLookup).toOption.toList else [] := by
  unfold candidates
  rw [List.filter_append,List.filterMap_append]
  congr 1
  split_ifs with own
  · simp only [List.filter_cons,own,and_self,decide_true,if_true,List.filterMap_cons]
    cases (buildRpcEndpoint getenv config envLookup).toOption <;> rfl
  · simp [own]

def endpointsAt (key : Text) (groups : List (Text × RpcEndpointGroup)) : List RpcEndpoint :=
  ((groups.lookup key).map RpcEndpointGroup.endpoints).getD []

theorem addEndpoint_lookup_same : (addEndpoint config endpoint groups).lookup (chainKey config.chainName config.chainId) =
    some ⟨config.chainName,config.chainId,endpointsAt (chainKey config.chainName config.chainId) groups ++ [endpoint]⟩ := by
  induction groups with
  | nil => simp [addEndpoint,endpointsAt]
  | cons entry rest ih =>
    obtain ⟨key,group⟩ := entry
    unfold addEndpoint
    by_cases own : key = chainKey config.chainName config.chainId
    · simp [own,endpointsAt]
    · have other := beq_false_of_ne (Ne.symm own)
      simpa [own,endpointsAt,List.lookup_cons,other] using ih

theorem addEndpoint_lookup_other (other : key ≠ chainKey config.chainName config.chainId) :
    (addEndpoint config endpoint groups).lookup key = groups.lookup key := by
  induction groups with
  | nil => simp [addEndpoint,List.lookup_cons,beq_false_of_ne other]
  | cons entry rest ih =>
    obtain ⟨first,group⟩ := entry
    unfold addEndpoint
    by_cases own : first = chainKey config.chainName config.chainId
    · have apart := beq_false_of_ne (own ▸ other)
      simp [own,List.lookup_cons,beq_false_of_ne other]
    · simp only [own,if_false,List.lookup_cons,ih]

theorem addEndpoint_keys : (addEndpoint config endpoint groups).map Prod.fst =
    if chainKey config.chainName config.chainId ∈ groups.map Prod.fst then groups.map Prod.fst
    else groups.map Prod.fst ++ [chainKey config.chainName config.chainId] := by
  induction groups with
  | nil => rfl
  | cons entry rest ih =>
    obtain ⟨key,group⟩ := entry
    unfold addEndpoint
    by_cases own : key = chainKey config.chainName config.chainId
    · simp [own]
    · simp only [own,if_false,List.map_cons,ih,List.mem_cons,Ne.symm own,false_or]
      split <;> rfl

theorem addEndpoint_keyed (keyed : ∀ entry ∈ groups,entry.1 = entry.2.key) :
    ∀ entry ∈ addEndpoint config endpoint groups,entry.1 = entry.2.key := by
  induction groups with
  | nil =>
    intro entry member
    cases List.mem_singleton.mp member
    rfl
  | cons first rest ih =>
    obtain ⟨key,group⟩ := first
    have behind := ih fun entry member => keyed entry (List.mem_cons_of_mem _ member)
    unfold addEndpoint
    split_ifs with own
    · intro entry member
      rcases List.mem_cons.mp member with rfl | member
      · exact own
      · exact keyed entry (List.mem_cons_of_mem _ member)
    · intro entry member
      rcases List.mem_cons.mp member with rfl | member
      · exact keyed _ List.mem_cons_self
      · exact behind entry member

-- The map holds one group for each chain with a candidate, under its own key.
structure Grouped (getenv : Text → Option Text) (envLookup : RpcEnvLookup) (configs : List RpcEndpointConfig)
    (groups : List (Text × RpcEndpointGroup)) : Prop where
  distinct : (groups.map Prod.fst).Nodup
  keyed : ∀ entry ∈ groups,entry.1 = entry.2.key
  found : ∀ chainName chainId,groups.lookup (chainKey chainName chainId) =
    if candidates getenv envLookup configs chainName chainId = [] then none
    else some ⟨chainName,chainId,candidates getenv envLookup configs chainName chainId⟩

theorem Grouped.endpointsAt (grouped : Grouped getenv envLookup configs groups) (chainName : Text) (chainId : BitVec 64) :
    endpointsAt (chainKey chainName chainId) groups = candidates getenv envLookup configs chainName chainId := by
  unfold Rpc.endpointsAt
  rw [grouped.found]
  split_ifs with none
  · exact none.symm
  · rfl

theorem Grouped.addConfig (grouped : Grouped getenv envLookup configs groups) :
    Grouped getenv envLookup (configs ++ [config]) (addConfig getenv envLookup groups config) := by
  unfold Rpc.addConfig
  cases built : buildRpcEndpoint getenv config envLookup with
  | error error =>
    have same : ∀ chainName chainId,candidates getenv envLookup (configs ++ [config]) chainName chainId =
        candidates getenv envLookup configs chainName chainId := by
      intro chainName chainId
      rw [candidates_snoc,built]
      simp [Except.toOption]
    exact ⟨grouped.distinct,grouped.keyed,fun chainName chainId => by rw [same]; exact grouped.found chainName chainId⟩
  | ok endpoint =>
    refine ⟨?_,addEndpoint_keyed grouped.keyed,fun chainName chainId => ?_⟩
    · rw [addEndpoint_keys]
      split_ifs with fresh
      · exact grouped.distinct
      · exact List.nodup_append.mpr ⟨grouped.distinct,List.nodup_singleton _,
          fun one member other single same => fresh (List.mem_singleton.mp single ▸ same ▸ member)⟩
    · rw [candidates_snoc,built]
      by_cases own : config.chainName = chainName ∧ config.chainId = chainId
      · obtain ⟨rfl,rfl⟩ := own
        rw [addEndpoint_lookup_same,grouped.endpointsAt]
        simp [Except.toOption]
      · have other : chainKey chainName chainId ≠ chainKey config.chainName config.chainId :=
          fun same => own ⟨(chainKey_inj.mp same).1.symm,(chainKey_inj.mp same).2.symm⟩
        rw [addEndpoint_lookup_other other,if_neg own,List.append_nil]
        exact grouped.found chainName chainId

theorem grouped_all : Grouped getenv envLookup configs (configs.foldl (Rpc.addConfig getenv envLookup) []) := by
  induction configs using List.reverseRecOn with
  | nil => exact ⟨List.nodup_nil,nofun,fun _ _ => rfl⟩
  | append_singleton configs config ih =>
    rw [List.foldl_append]
    exact ih.addConfig

theorem lookup_of_mem (distinct : (groups.map Prod.fst).Nodup) (member : (key,group) ∈ groups) : groups.lookup key = some group := by
  obtain ⟨front,back,rfl⟩ := List.append_of_mem member
  refine List.lookup_eq_some_iff.mpr ⟨front,back,rfl,fun entry earlier => ?_⟩
  rw [List.map_append,List.nodup_append] at distinct
  have apart := distinct.2.2 entry.1 (List.mem_map_of_mem earlier) key List.mem_cons_self
  simpa using Ne.symm apart

theorem Grouped.mem_iff (grouped : Grouped getenv envLookup configs groups) : group ∈ groups.map Prod.snd ↔
      group.endpoints = candidates getenv envLookup configs group.chainName group.chainId ∧ group.endpoints ≠ [] := by
  have found := grouped.found group.chainName group.chainId
  constructor
  · intro member
    obtain ⟨⟨key,_⟩,entry,rfl⟩ := List.mem_map.mp member
    have own : key = chainKey _ _ := grouped.keyed _ entry
    rw [← own,lookup_of_mem grouped.distinct entry] at found
    split at found
    · exact absurd found nofun
    · rename_i some
      have same := congrArg RpcEndpointGroup.endpoints (Option.some.inj found)
      exact ⟨same,same ▸ some⟩
  · rintro ⟨all,some⟩
    rw [if_neg (all ▸ some),← all] at found
    obtain ⟨front,back,parts,_⟩ := List.lookup_eq_some_iff.mp found
    refine List.mem_map.mpr ⟨(chainKey group.chainName group.chainId,group),?_,rfl⟩
    rw [parts]
    exact List.mem_append_right _ List.mem_cons_self

end grouping

namespace RpcManager

theorem mem_groupRpcEndpoints_iff : group ∈ groupRpcEndpoints sort getenv config envLookup ↔
      candidates getenv envLookup config.endpoints group.chainName group.chainId ≠ [] ∧
      group.endpoints = trim config (sort.endpoints (candidates getenv envLookup config.endpoints group.chainName group.chainId)) := by
  unfold groupRpcEndpoints
  rw [(sort.sortsGroups _).perm.mem_iff]
  have grouped : Grouped getenv envLookup config.endpoints _ := grouped_all ..
  constructor
  · intro member
    obtain ⟨entry,inside,rfl⟩ := List.mem_map.mp member
    obtain ⟨all,some⟩ := grouped.mem_iff.mp (List.mem_map_of_mem inside)
    exact ⟨all ▸ some,by rw [← all]⟩
  · rintro ⟨some,trimmed⟩
    have collected : (⟨group.chainName,group.chainId,candidates getenv envLookup config.endpoints group.chainName group.chainId⟩ :
        RpcEndpointGroup) ∈ _ := grouped.mem_iff.mpr ⟨rfl,some⟩
    obtain ⟨entry,inside,same⟩ := List.mem_map.mp collected
    refine List.mem_map.mpr ⟨entry,inside,?_⟩
    rw [same]
    rw [← trimmed]

theorem pool_eq : (new sort getenv config envLookup).pool chainName chainId =
    if candidates getenv envLookup config.endpoints chainName chainId = [] then none
    else some (.new sort.endpoints (trim config (sort.endpoints (candidates getenv envLookup config.endpoints chainName chainId)))) := by
  have members : ∀ entry ∈ (new sort getenv config envLookup).pools,entry.group.key = chainKey chainName chainId →
      candidates getenv envLookup config.endpoints chainName chainId ≠ [] ∧
      entry.pool = .new sort.endpoints (trim config (sort.endpoints (candidates getenv envLookup config.endpoints chainName chainId))) := by
    intro entry member same
    obtain ⟨group,inside,rfl⟩ := List.mem_map.mp member
    obtain ⟨name,id⟩ := chainKey_inj.mp same
    obtain ⟨some,endpoints⟩ := mem_groupRpcEndpoints_iff.mp inside
    rw [name,id] at some endpoints
    exact ⟨some,congrArg (RpcEndpointPool.new sort.endpoints) endpoints⟩
  unfold pool
  split_ifs with some
  · rw [Option.map_eq_none_iff,List.find?_eq_none]
    intro entry member same
    exact (members entry member (of_decide_eq_true same)).1 some
  · cases found : (new sort getenv config envLookup).pools.find? fun entry => entry.group.key = chainKey chainName chainId with
    | none =>
      have inside : (⟨chainName,chainId,trim config (sort.endpoints (candidates getenv envLookup config.endpoints chainName chainId))⟩ :
          RpcEndpointGroup) ∈ groupRpcEndpoints sort getenv config envLookup := mem_groupRpcEndpoints_iff.mpr ⟨some,rfl⟩
      have missing := List.find?_eq_none.mp found _ (List.mem_map_of_mem inside)
      exact absurd (decide_eq_true rfl) missing
    | some entry =>
      have same := List.find?_some found
      have member := List.mem_of_find?_eq_some found
      rw [Option.map_some,(members entry member (of_decide_eq_true same)).2]

end RpcManager
end EvmRelay.Rpc
