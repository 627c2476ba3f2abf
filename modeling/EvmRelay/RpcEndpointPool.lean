import EvmRelay.ParseUtility
import EvmRelay.Ranking
import Mathlib.Algebra.Group.Int.Defs
import Mathlib.Algebra.Group.Basic

namespace EvmRelay.Rpc

-- Ticks of the steady clock, a nanosecond each.
abbrev TimePoint := Int

def seconds (count : Nat) : Int := 1000000000 * count

theorem seconds_le_iff : seconds first ≤ seconds second ↔ first ≤ second := by
  unfold seconds
  omega

theorem seconds_inj : seconds first = seconds second ↔ first = second := by
  unfold seconds
  omega

inductive RpcEndpointState where
  | kAvailable
  | kTemporarilyFailed
  | kDisabled
  deriving DecidableEq

structure RpcEndpoint where
  chainName : Text
  chainId : BitVec 64
  url : Text
  priority : BitVec 32
  weight : BitVec 32
  rateLimitPerSecond : BitVec 32
  isPaid : Bool
  isPublic : Bool
  verified : Bool
  state : RpcEndpointState
  lastFailureTime : TimePoint
  failureCount : BitVec 32
  backoffUntil : TimePoint
  deriving DecidableEq

def endpointLess (lhs rhs : RpcEndpoint) : Bool :=
  if lhs.priority ≠ rhs.priority then lhs.priority < rhs.priority
  else if lhs.weight ≠ rhs.weight then lhs.weight > rhs.weight
  else if lhs.chainName ≠ rhs.chainName then lhs.chainName < rhs.chainName
  else if lhs.chainId ≠ rhs.chainId then lhs.chainId < rhs.chainId
  else lhs.url < rhs.url

def kMaxBackoff : Nat := 60

def kEscalationWindow : Int := seconds (5 * 60)

def kEscalationThreshold : BitVec 32 := 3

-- 1ULL << count. C++ leaves it undefined from 64 on: overshift is what the
-- machine then makes of it.
def shiftOne (overshift : BitVec 32 → BitVec 64) (count : BitVec 32) : BitVec 64 :=
  if count.toNat < 64 then 1#64 <<< count.toNat else overshift count

def backoffSeconds (overshift : BitVec 32 → BitVec 64) (failureCount : BitVec 32) : Nat :=
  min (shiftOne overshift (failureCount - 1)).toNat kMaxBackoff

namespace RpcEndpoint

def countedAt (now : TimePoint) (endpoint : RpcEndpoint) : BitVec 32 :=
  (if 0 < endpoint.failureCount ∧ kEscalationWindow < now - endpoint.lastFailureTime then 0 else endpoint.failureCount) + 1

-- What mark_temporary_failure, disable and reset_temporary_failures do to an
-- endpoint they apply to.
def markFailed (overshift : BitVec 32 → BitVec 64) (now : TimePoint) (endpoint : RpcEndpoint) : RpcEndpoint :=
  { endpoint with
    state := if kEscalationThreshold ≤ endpoint.countedAt now then .kDisabled else .kTemporarilyFailed
    lastFailureTime := now
    failureCount := endpoint.countedAt now
    backoffUntil := now + seconds (backoffSeconds overshift (endpoint.countedAt now)) }

def disabled (endpoint : RpcEndpoint) : RpcEndpoint := { endpoint with state := .kDisabled }

def recovered (endpoint : RpcEndpoint) : RpcEndpoint :=
  { endpoint with state := .kAvailable, failureCount := 0, backoffUntil := 0 }

end RpcEndpoint

structure RpcEndpointPool where
  endpoints : List RpcEndpoint
  deriving DecidableEq

namespace RpcEndpointPool

def new (sort : List RpcEndpoint → List RpcEndpoint) (endpoints : List RpcEndpoint) : RpcEndpointPool := ⟨sort endpoints⟩

def isUsable (now : TimePoint) (endpoint : RpcEndpoint) : Bool :=
  endpoint.state = .kAvailable ∨ (endpoint.state = .kTemporarilyFailed ∧ endpoint.backoffUntil ≤ now)

-- The endpoint the returned reference is to, with its position. The clock is
-- read again for each endpoint: clock tells the reading at each position.
def nextEndpoint (clock : Nat → TimePoint) (pool : RpcEndpointPool) : Option (RpcEndpoint × Nat) :=
  pool.endpoints.zipIdx.find? fun entry => isUsable (clock entry.2) entry.1

-- The calls that write to a pool, with the one reading of the clock made.
inductive Operation where
  | markTemporaryFailure (now : TimePoint) (url : Text)
  | disable (url : Text)
  | resetTemporaryFailures

def Operation.visit (overshift : BitVec 32 → BitVec 64) (endpoint : RpcEndpoint) : Operation → RpcEndpoint
  | .markTemporaryFailure now url => if endpoint.url = url then endpoint.markFailed overshift now else endpoint
  | .disable url => if endpoint.url = url then endpoint.disabled else endpoint
  | .resetTemporaryFailures => if endpoint.state = .kTemporarilyFailed then endpoint.recovered else endpoint

def perform (overshift : BitVec 32 → BitVec 64) (pool : RpcEndpointPool) (operation : Operation) : RpcEndpointPool :=
  ⟨pool.endpoints.map fun endpoint => operation.visit overshift endpoint⟩

def run (overshift : BitVec 32 → BitVec 64) (pool : RpcEndpointPool) (operations : List Operation) : RpcEndpointPool :=
  operations.foldl (perform overshift) pool

-- An operation treats every endpoint for itself.
def visits (overshift : BitVec 32 → BitVec 64) (endpoint : RpcEndpoint) (operations : List Operation) : RpcEndpoint :=
  operations.foldl (Operation.visit overshift) endpoint

section runs
variable
  {position : Nat}

theorem run_endpoints : (run overshift pool operations).endpoints = pool.endpoints.map (visits overshift · operations) := by
  induction operations generalizing pool with
  | nil => exact (List.map_id ..).symm
  | cons operation rest ih =>
    refine (@ih (perform overshift pool operation)).trans ?_
    simp [perform,visits]

theorem run_at (found : pool.endpoints[position]? = some endpoint) :
    (run overshift pool operations).endpoints[position]? = some (visits overshift endpoint operations) := by
  rw [run_endpoints,List.getElem?_map,found]
  rfl

theorem visits_snoc :
    visits overshift endpoint (operations ++ [operation]) = operation.visit overshift (visits overshift endpoint operations) :=
  List.foldl_concat (Operation.visit overshift) endpoint operation operations

theorem visits_keep {read : RpcEndpoint → α} (marked : ∀ endpoint now,read (endpoint.markFailed overshift now) = read endpoint)
    (disabled : ∀ endpoint,read endpoint.disabled = read endpoint) (recovered : ∀ endpoint,read endpoint.recovered = read endpoint) :
    read (visits overshift endpoint operations) = read endpoint := by
  induction operations using List.reverseRecOn with
  | nil => rfl
  | append_singleton operations operation ih =>
    rw [visits_snoc]
    cases operation with
    | markTemporaryFailure now url =>
      unfold Operation.visit
      dsimp only
      split
      · exact (marked _ now).trans ih
      · exact ih
    | disable url =>
      unfold Operation.visit
      dsimp only
      split
      · exact (disabled _).trans ih
      · exact ih
    | resetTemporaryFailures =>
      unfold Operation.visit
      dsimp only
      split
      · exact (recovered _).trans ih
      · exact ih

theorem visits_url : (visits overshift endpoint operations).url = endpoint.url :=
  visits_keep (fun _ _ => rfl) (fun _ => rfl) fun _ => rfl

theorem nextEndpoint_usable (next : nextEndpoint clock pool = some (endpoint,position)) :
    pool.endpoints[position]? = some endpoint ∧ isUsable (clock position) endpoint = true := by
  have usable := List.find?_some next
  have member := List.mem_zipIdx_iff_getElem?.mp (List.mem_of_find?_eq_some next)
  exact ⟨member,usable⟩

theorem never_usable_iff : (∀ now,isUsable now endpoint = false) ↔ endpoint.state = .kDisabled := by
  unfold isUsable
  constructor
  · intro never
    have unavailable := never endpoint.backoffUntil
    cases state : endpoint.state with
    | kDisabled => rfl
    | _ => simp [state] at unavailable
  · intro disabled now
    simp [disabled]

theorem visit_disabled_iff (disabled : endpoint.state = .kDisabled) (operation : Operation) :
    (operation.visit overshift endpoint).state = .kDisabled ↔
      ∀ now,operation = .markTemporaryFailure now endpoint.url → kEscalationThreshold ≤ endpoint.countedAt now := by
  cases operation with
  | markTemporaryFailure now url =>
    unfold Operation.visit
    by_cases own : endpoint.url = url
    · subst own
      simp [RpcEndpoint.markFailed]
    · simp [own,Ne.symm own,disabled]
  | disable url =>
    refine iff_of_true ?_ nofun
    unfold Operation.visit
    dsimp only
    split
    · rfl
    · exact disabled
  | resetTemporaryFailures =>
    refine iff_of_true ?_ nofun
    simp [Operation.visit,disabled]

theorem visits_disabled_iff (disabled : endpoint.state = .kDisabled) :
    (∀ before after,operations = before ++ after → (visits overshift endpoint before).state = .kDisabled) ↔
      ∀ before now after,operations = before ++ .markTemporaryFailure now endpoint.url :: after →
        kEscalationThreshold ≤ (visits overshift endpoint before).countedAt now := by
  constructor
  · intro stays before now after split
    have longer := stays (before ++ [.markTemporaryFailure now endpoint.url]) after (by simp [split])
    rw [visits_snoc] at longer
    exact (visit_disabled_iff (stays before _ split) _).mp longer now (by rw [visits_url])
  · intro counted before
    induction before using List.reverseRecOn with
    | nil => exact fun _ _ => disabled
    | append_singleton before operation ih =>
      intro after split
      have shorter : operations = before ++ operation :: after := by simp [split]
      rw [visits_snoc]
      refine (visit_disabled_iff (ih _ shorter) ..).mpr fun now marks => counted before now after ?_
      rw [shorter,marks,visits_url]

end runs

-- A disabled endpoint stays out of use exactly as long as each failure still
-- reported for it counts as the third or a later one.
theorem disabled_stays_iff (overshift : BitVec 32 → BitVec 64) (pool : RpcEndpointPool) (operations : List Operation)
    (position : Nat) (endpoint : RpcEndpoint) (found : pool.endpoints[position]? = some endpoint)
    (disabled : endpoint.state = .kDisabled) : (∀ before after,operations = before ++ after →
      ∃ kept,(run overshift pool before).endpoints[position]? = some kept ∧ kept.state = .kDisabled ∧
        (∀ now,isUsable now kept = false) ∧
        ∀ clock other,nextEndpoint clock (run overshift pool before) ≠ some (other,position)) ↔
    ∀ before now after,operations = before ++ .markTemporaryFailure now endpoint.url :: after →
      ∃ failed,(run overshift pool before).endpoints[position]? = some failed ∧ kEscalationThreshold ≤ failed.countedAt now := by
  simp only [run_at found,Option.some.injEq,exists_eq_left']
  rw [← visits_disabled_iff disabled]
  constructor
  · intro stays before after split
    exact (stays before after split).1
  · intro stays before after split
    have down := stays before after split
    have never := never_usable_iff.mpr down
    refine ⟨down,never,fun clock other next => ?_⟩
    obtain ⟨member,usable⟩ := nextEndpoint_usable next
    rw [run_at found,Option.some.injEq] at member
    rw [← member,never] at usable
    exact Bool.false_ne_true usable

def freshEndpoint (url : Text) : RpcEndpoint :=
  ⟨[],1,url,0,0,0,false,true,false,.kAvailable,0,0,0⟩

def x86Overshift (count : BitVec 32) : BitVec 64 := 1#64 <<< (count.toNat % 64)

def escalatedPool : RpcEndpointPool := ⟨[{ freshEndpoint [0x61] with state := .kDisabled, failureCount := 3 }]⟩

theorem fourth_failure_stays :
    ∃ kept,(run x86Overshift escalatedPool [.markTemporaryFailure (seconds 1) [0x61]]).endpoints[0]? = some kept ∧
      kept.state = .kDisabled ∧ (∀ now,isUsable now kept = false) ∧
      ∀ clock other,nextEndpoint clock (run x86Overshift escalatedPool [.markTemporaryFailure (seconds 1) [0x61]]) ≠ some (other,0) := by
  refine (disabled_stays_iff x86Overshift escalatedPool [.markTemporaryFailure (seconds 1) [0x61]] 0 _ rfl rfl).mpr ?_ _ [] (by simp)
  intro before now after split
  cases before with
  | nil =>
    cases split
    exact ⟨_,rfl,by decide +kernel⟩
  | cons operation before => simp at split

-- Disabled by a call and failing once, or by three failures in a row and failing
-- again five minutes later, the endpoint is back a second after that failure.
theorem failure_revives_disabled :
    nextEndpoint (fun _ => seconds 1) (run x86Overshift ⟨[freshEndpoint [0x61]]⟩ [.disable [0x61]]) = none ∧
    (nextEndpoint (fun _ => seconds 1)
      (run x86Overshift ⟨[freshEndpoint [0x61]]⟩ [.disable [0x61],.markTemporaryFailure 0 [0x61]])).isSome = true ∧
    nextEndpoint (fun _ => seconds 302) (run x86Overshift ⟨[freshEndpoint [0x61]]⟩
      (List.replicate 3 (.markTemporaryFailure 0 [0x61]))) = none ∧
    (nextEndpoint (fun _ => seconds 302) (run x86Overshift ⟨[freshEndpoint [0x61]]⟩
      (List.replicate 3 (.markTemporaryFailure 0 [0x61]) ++ [.markTemporaryFailure (seconds 301) [0x61]]))).isSome = true := by
  decide +kernel

theorem shiftOne_toNat (defined : count.toNat < 64) : (shiftOne overshift count).toNat = 2 ^ count.toNat := by
  unfold shiftOne
  rw [if_pos defined,BitVec.toNat_shiftLeft,Nat.shiftLeft_eq]
  have fits : 2 ^ count.toNat < 2 ^ 64 := Nat.pow_lt_pow_right (by decide) defined
  simpa using Nat.mod_eq_of_lt fits

theorem previous_toNat : (BitVec.ofNat 32 k - 1).toNat = if k % 2 ^ 32 = 0 then 2 ^ 32 - 1 else k % 2 ^ 32 - 1 := by
  rw [BitVec.toNat_sub,BitVec.toNat_ofNat]
  split <;> simp <;> omega

theorem backoff_capped (late : 7 ≤ k) : min (2 ^ (k - 1)) kMaxBackoff = kMaxBackoff := by
  have power : 2 ^ 6 ≤ 2 ^ (k - 1) := Nat.pow_le_pow_right (by decide) (by omega)
  unfold kMaxBackoff
  omega

theorem backoffSeconds_defined (some : k % 2 ^ 32 ≠ 0) (defined : k % 2 ^ 32 ≤ 64) :
    backoffSeconds overshift (BitVec.ofNat 32 k) = min (2 ^ (k % 2 ^ 32 - 1)) kMaxBackoff := by
  have amount : (BitVec.ofNat 32 k - 1).toNat = k % 2 ^ 32 - 1 := by rw [previous_toNat,if_neg some]
  unfold backoffSeconds
  rw [shiftOne_toNat (by omega),amount]

theorem backoffSeconds_law_iff (some : 1 ≤ k) :
    (∀ overshift,backoffSeconds overshift (BitVec.ofNat 32 k) = min (2 ^ (k - 1)) kMaxBackoff) ↔
      k ≤ 64 ∨ (7 ≤ k % 2 ^ 32 ∧ k % 2 ^ 32 ≤ 64) := by
  by_cases defined : k % 2 ^ 32 ≠ 0 ∧ k % 2 ^ 32 ≤ 64
  · simp only [backoffSeconds_defined defined.1 defined.2,forall_const]
    rcases Nat.lt_or_ge k (2 ^ 32) with small | large
    · rw [Nat.mod_eq_of_lt small] at defined ⊢
      exact iff_of_true rfl (.inl defined.2)
    have capped : min (2 ^ (k - 1)) kMaxBackoff = kMaxBackoff := backoff_capped (by omega)
    rw [capped]
    rcases Nat.lt_or_ge (k % 2 ^ 32) 7 with early | late
    · refine iff_of_false (fun law => ?_) (by omega)
      have power : 2 ^ (k % 2 ^ 32 - 1) ≤ 2 ^ 5 := Nat.pow_le_pow_right (by decide) (by omega)
      unfold kMaxBackoff at law
      omega
    · exact iff_of_true (backoff_capped late) (.inr ⟨late,defined.2⟩)
  · -- A shift by 64 or more: nothing is known of it.
    refine iff_of_false (fun law => ?_) (by omega)
    have wide : ¬ (BitVec.ofNat 32 k - 1).toNat < 64 := by
      rw [previous_toNat]
      split <;> omega
    have zero := law fun _ => 0
    unfold backoffSeconds shiftOne at zero
    rw [if_neg wide] at zero
    have positive : 0 < 2 ^ (k - 1) := Nat.two_pow_pos _
    unfold kMaxBackoff at zero
    have none : ((fun _ => 0 : BitVec 32 → BitVec 64) (BitVec.ofNat 32 k - 1)).toNat = 0 := rfl
    omega

def Operation.failureAt (url : Text) : Operation → Option TimePoint
  | .markTemporaryFailure now other => if other = url then some now else none
  | _ => none

def failureTimes (url : Text) (operations : List Operation) : List TimePoint :=
  operations.filterMap (Operation.failureAt url)

def Repeated (times : List TimePoint) : Prop :=
  times.IsChain fun earlier later => later - earlier ≤ kEscalationWindow

def Forgotten (endpoint : RpcEndpoint) (times : List TimePoint) : Prop :=
  ∀ first ∈ times.head?,endpoint.failureCount = 0 ∨ kEscalationWindow < first - endpoint.lastFailureTime

theorem Repeated.left (close : Repeated (times ++ later)) : Repeated times :=
  (List.isChain_append.mp close).1

theorem Forgotten.left (forgotten : Forgotten endpoint (times ++ later)) : Forgotten endpoint times := by
  intro first starts
  refine forgotten first ?_
  rw [List.head?_append,Option.mem_def.mp starts]
  rfl

inductive FailedAt (overshift : BitVec 32 → BitVec 64) (endpoint failed : RpcEndpoint) : List TimePoint → Prop where
  | never : failed.failureCount = endpoint.failureCount → failed.lastFailureTime = endpoint.lastFailureTime →
      FailedAt overshift endpoint failed []
  | last (times : List TimePoint) : failed.failureCount = BitVec.ofNat 32 (times.length + 1) → failed.lastFailureTime = now →
      failed.backoffUntil = now + seconds (backoffSeconds overshift (BitVec.ofNat 32 (times.length + 1))) →
      FailedAt overshift endpoint failed (times ++ [now])

theorem FailedAt.counted (before : FailedAt overshift endpoint failed times) (forgotten : Forgotten endpoint (times ++ [now]))
    (close : Repeated (times ++ [now])) : failed.countedAt now = BitVec.ofNat 32 (times.length + 1) := by
  unfold RpcEndpoint.countedAt
  cases before with
  | never count last =>
    rw [count,last]
    rcases forgotten now rfl with none | stale
    · simp [none]
    · simp [stale]
  | @last previous times count last waits =>
    have inside : now - previous ≤ kEscalationWindow := by
      rw [Repeated,List.append_assoc] at close
      exact (List.isChain_append.mp close).2.1.rel
    rw [last,if_neg fun late => absurd late.2 (Int.not_lt.mpr inside),count]
    simp [BitVec.ofNat_add]

theorem failureTimes_snoc :
    failureTimes url (operations ++ [operation]) = failureTimes url operations ++ (operation.failureAt url).toList := by
  unfold failureTimes
  rw [List.filterMap_append]
  cases at' : operation.failureAt url <;> simp [at']

theorem FailedAt.other {operation : Operation} (before : FailedAt overshift endpoint failed times)
    (other : operation.failureAt failed.url = none) (unreset : operation ≠ .resetTemporaryFailures) :
    FailedAt overshift endpoint (operation.visit overshift failed) times := by
  have same : (operation.visit overshift failed).failureCount = failed.failureCount ∧
      (operation.visit overshift failed).lastFailureTime = failed.lastFailureTime ∧
      (operation.visit overshift failed).backoffUntil = failed.backoffUntil := by
    cases operation with
    | markTemporaryFailure now url =>
      have foreign : failed.url ≠ url := by
        intro own
        simp [Operation.failureAt,own] at other
      simp [Operation.visit,foreign]
    | disable url =>
      unfold Operation.visit
      dsimp only
      split <;> exact ⟨rfl,rfl,rfl⟩
    | resetTemporaryFailures => exact absurd rfl unreset
  obtain ⟨count,last,waits⟩ := same
  cases before with
  | never count' last' => exact .never (count.trans count') (last.trans last')
  | last times count' last' waits' => exact .last times (count.trans count') (last.trans last') (waits.trans waits')

theorem visits_failedAt (unreset : .resetTemporaryFailures ∉ operations)
    (close : Repeated (failureTimes endpoint.url operations)) (forgotten : Forgotten endpoint (failureTimes endpoint.url operations)) :
    FailedAt overshift endpoint (visits overshift endpoint operations) (failureTimes endpoint.url operations) := by
  induction operations using List.reverseRecOn with
  | nil => exact .never rfl rfl
  | append_singleton operations operation ih =>
    rw [failureTimes_snoc] at close forgotten ⊢
    have before := ih (fun member => unreset (List.mem_append_left _ member)) close.left forgotten.left
    rw [visits_snoc]
    cases fails : operation.failureAt endpoint.url with
    | none =>
      rw [Option.toList_none,List.append_nil]
      refine before.other (by rw [visits_url]; exact fails) fun reset => unreset ?_
      exact List.mem_append_right _ (List.mem_singleton.mpr reset.symm)
    | some now =>
      rw [fails] at close forgotten
      have marks : operation = .markTemporaryFailure now endpoint.url := by
        unfold Operation.failureAt at fails
        split at fails
        · rename_i at' url
          split at fails
          · rename_i own
            rw [own,Option.some.inj fails]
          · exact absurd fails nofun
        · exact absurd fails nofun
      have counted := before.counted forgotten close
      rw [marks,Operation.visit,if_pos visits_url]
      refine .last _ counted rfl ?_
      simp only [RpcEndpoint.markFailed,counted]

theorem visits_backoff (unreset : .resetTemporaryFailures ∉ operations)
    (close : Repeated (failureTimes endpoint.url operations)) (forgotten : Forgotten endpoint (failureTimes endpoint.url operations))
    (some : failureTimes endpoint.url operations ≠ []) :
    (visits overshift endpoint operations).backoffUntil - (visits overshift endpoint operations).lastFailureTime =
      seconds (backoffSeconds overshift (BitVec.ofNat 32 (failureTimes endpoint.url operations).length)) := by
  have failed : FailedAt overshift endpoint (visits overshift endpoint operations) _ := visits_failedAt unreset close forgotten
  generalize failureTimes endpoint.url operations = times at *
  cases failed with
  | never => exact absurd rfl some
  | @last now times count last waits =>
    rw [last,waits,List.length_append]
    exact add_sub_cancel_left now _

-- After k failures in a row the wait follows the law exactly up to k = 64 and
-- where the counter has come around to a number that gives the longest wait.
theorem backoff_law_iff (pool : RpcEndpointPool) (operations : List Operation) (position : Nat) (endpoint : RpcEndpoint) (k : Nat)
    (found : pool.endpoints[position]? = some endpoint) (unreset : .resetTemporaryFailures ∉ operations)
    (counted : (failureTimes endpoint.url operations).length = k) (failing : 1 ≤ k)
    (close : Repeated (failureTimes endpoint.url operations)) (forgotten : Forgotten endpoint (failureTimes endpoint.url operations)) :
    ((∀ overshift,∃ failed,(run overshift pool operations).endpoints[position]? = some failed ∧
        failed.backoffUntil - failed.lastFailureTime = seconds (min (2 ^ (k - 1)) 60)) ↔
      k ≤ 64 ∨ (7 ≤ k % 2 ^ 32 ∧ k % 2 ^ 32 ≤ 64)) ∧
    (k ≤ 64 → ∀ overshift before after,operations = before ++ after → failureTimes endpoint.url before ≠ [] →
      ∃ earlier failed,(run overshift pool before).endpoints[position]? = some earlier ∧
        (run overshift pool operations).endpoints[position]? = some failed ∧
        earlier.backoffUntil - earlier.lastFailureTime ≤ failed.backoffUntil - failed.lastFailureTime) := by
  have any := List.length_pos_iff.mp (counted ▸ failing)
  simp only [run_at found,Option.some.injEq,exists_and_left,exists_eq_left']
  constructor
  · rw [← backoffSeconds_law_iff failing]
    refine forall_congr' fun overshift => ?_
    rw [visits_backoff unreset close forgotten any,counted,seconds_inj]
    rfl
  · intro defined overshift before after parts failed
    have times : failureTimes endpoint.url operations = failureTimes endpoint.url before ++ failureTimes endpoint.url after := by
      rw [parts]
      exact List.filterMap_append
    have shorter : (failureTimes endpoint.url before).length ≤ k := by
      rw [← counted,times,List.length_append]
      exact Nat.le_add_right _ _
    have fits := shorter.trans defined
    have first := List.length_pos_iff.mpr failed
    have power : 2 ^ ((failureTimes endpoint.url before).length - 1) ≤ 2 ^ (k - 1) := Nat.pow_le_pow_right (by decide) (by omega)
    rw [visits_backoff unreset close forgotten any,counted,(backoffSeconds_law_iff failing).mpr (.inl defined)]
    rw [times] at close forgotten
    rw [visits_backoff (fun reset => unreset (parts ▸ List.mem_append_left _ reset)) close.left forgotten.left failed,
      (backoffSeconds_law_iff first).mpr (.inl fits),seconds_le_iff]
    exact min_le_min_right kMaxBackoff power

theorem second_failure_waits :
    ∃ failed,(run x86Overshift ⟨[freshEndpoint [0x61]]⟩ (List.replicate 2 (.markTemporaryFailure 7 [0x61]))).endpoints[0]? = some failed ∧
      failed.backoffUntil - failed.lastFailureTime = seconds (min (2 ^ (2 - 1)) 60) :=
  (backoff_law_iff ⟨[freshEndpoint [0x61]]⟩ (List.replicate 2 (.markTemporaryFailure 7 [0x61])) 0 (freshEndpoint [0x61]) 2
    rfl nofun rfl (by decide) (.cons_cons (by decide) (.singleton _)) (fun _ _ => .inl rfl)).1.mpr (.inl (by decide)) x86Overshift

theorem next_failure_shrinks :
    (run x86Overshift ⟨[freshEndpoint [0x61]]⟩ (List.replicate 64 (.markTemporaryFailure 7 [0x61]))).endpoints.map
      (fun endpoint => endpoint.backoffUntil - endpoint.lastFailureTime) = [seconds 60] ∧
    (run x86Overshift ⟨[freshEndpoint [0x61]]⟩ (List.replicate 65 (.markTemporaryFailure 7 [0x61]))).endpoints.map
      (fun endpoint => endpoint.backoffUntil - endpoint.lastFailureTime) = [seconds 1] := by
  decide +kernel

end RpcEndpointPool
end EvmRelay.Rpc
