import Mathlib.Data.Finset.Card
import EvmRelay.FifoWindow
import EvmRelay.Objects

namespace EvmRelay

structure ChainTracker where
  windowSize : Nat
  tipNumber : BitVec 64
  tipHash : Option Hash256
  seenSet : Finset Hash256
  evictionQueue : List Hash256
  evictionHead : Nat

namespace ChainTracker

abbrev kDefaultWindowSize : Nat := 1024

def new (windowSize : Nat) : ChainTracker :=
  let windowSize := if windowSize = 0 then kDefaultWindowSize else windowSize
  ⟨windowSize,0#64,none,∅,List.replicate windowSize (FixedBytes.zeros 32),0⟩

-- The oldest hash makes room once the window is full; until then the queue is
-- filled from its start.
def insertSeen (tracker : ChainTracker) (blockHash : Hash256) : ChainTracker :=
  if tracker.seenSet.card ≥ tracker.windowSize then
    let oldest := tracker.evictionQueue.getD tracker.evictionHead (FixedBytes.zeros 32)
    { tracker with
      seenSet := insert blockHash (tracker.seenSet.erase oldest)
      evictionQueue := tracker.evictionQueue.set tracker.evictionHead blockHash
      evictionHead := (tracker.evictionHead + 1) % tracker.windowSize }
  else
    { tracker with
      seenSet := insert blockHash tracker.seenSet
      evictionQueue := tracker.evictionQueue.set tracker.seenSet.card blockHash }

def raiseTip (tracker : ChainTracker) (blockHash : Hash256) (blockNumber : BitVec 64) : ChainTracker :=
  if blockNumber > tracker.tipNumber then { tracker with tipNumber := blockNumber, tipHash := some blockHash } else tracker

def markSeen (tracker : ChainTracker) (blockHash : Hash256) (blockNumber : BitVec 64) : Bool × ChainTracker :=
  if blockHash ∈ tracker.seenSet then (false,tracker)
  else (true,(tracker.insertSeen blockHash).raiseTip blockHash blockNumber)

def isSeen (tracker : ChainTracker) (blockHash : Hash256) : Bool := blockHash ∈ tracker.seenSet

def tip (tracker : ChainTracker) : BitVec 64 := tracker.tipNumber

def seenCount (tracker : ChainTracker) : Nat := tracker.seenSet.card

def reset (tracker : ChainTracker) : ChainTracker :=
  { tracker with
    tipNumber := 0#64
    tipHash := none
    seenSet := ∅
    evictionQueue := tracker.evictionQueue.map fun _ => FixedBytes.zeros 32
    evictionHead := 0 }

-- The tracker remembers the last hashes it has accepted, the newest of which
-- stands first in this history.
structure Tracks (tracker : ChainTracker) (accepted : List Hash256) : Prop where
  layout : FifoWindow.Layout tracker.windowSize accepted tracker.evictionQueue tracker.evictionHead
  nodup : (accepted.take tracker.windowSize).Nodup
  seen : tracker.seenSet = (accepted.take tracker.windowSize).toFinset

theorem new_tracks (windowSize : Nat) : Tracks (new windowSize) [] := by
  have layout : FifoWindow.Layout _ [] (new windowSize).evictionQueue 0 := FifoWindow.Layout.start (by
    simp only [new,List.length_replicate]
    split
    · decide
    · omega)
  rw [show (new windowSize).evictionQueue.length = (new windowSize).windowSize from List.length_replicate] at layout
  exact ⟨layout,by simp,by simp [new]⟩

section tracks
variable (tracks : Tracks tracker accepted)
include tracks

theorem Tracks.mem_seenSet : blockHash ∈ tracker.seenSet ↔ blockHash ∈ accepted.take tracker.windowSize := by
  rw [tracks.seen,List.mem_toFinset]

theorem Tracks.card : tracker.seenSet.card = min tracker.windowSize accepted.length := by
  rw [tracks.seen,List.toFinset_card_of_nodup tracks.nodup,List.length_take]

theorem Tracks.evict (full : tracker.windowSize ≤ accepted.length)
    (fresh : blockHash ∉ accepted.take tracker.windowSize) : (accepted.take tracker.windowSize).toFinset.erase
        (tracker.evictionQueue.getD tracker.evictionHead (FixedBytes.zeros 32)) =
      (accepted.take (tracker.windowSize - 1)).toFinset ∧ (blockHash :: accepted.take (tracker.windowSize - 1)).Nodup := by
  have cut := tracks.layout.oldest full (FixedBytes.zeros 32)
  have nodup := tracks.nodup
  rw [cut] at nodup fresh ⊢
  obtain ⟨newer,_,apart⟩ := List.nodup_append.mp nodup
  refine ⟨?_,List.nodup_cons.mpr ⟨fun member => fresh (List.mem_append_left _ member),newer⟩⟩
  ext hash
  simp only [List.toFinset_append,Finset.mem_erase,Finset.mem_union,List.mem_toFinset,List.mem_singleton]
  constructor
  · intro kept
    exact kept.2.resolve_right kept.1
  · intro member
    exact ⟨apart hash member _ List.mem_cons_self,Or.inl member⟩

theorem Tracks.insertSeen (fresh : blockHash ∉ accepted.take tracker.windowSize) :
    Tracks (tracker.insertSeen blockHash) (blockHash :: accepted) := by
  have some := Nat.zero_lt_of_lt tracks.layout.inside
  obtain ⟨smaller,size⟩ := Nat.exists_eq_succ_of_ne_zero (Nat.ne_of_gt some)
  have taken : (blockHash :: accepted).take tracker.windowSize = blockHash :: accepted.take (tracker.windowSize - 1) := by
    rw [size]
    rfl
  unfold ChainTracker.insertSeen
  rw [tracks.card]
  by_cases full : tracker.windowSize ≤ accepted.length
  · obtain ⟨left,nodup⟩ := tracks.evict full fresh
    rw [if_pos (by omega)]
    refine ⟨tracks.layout.overwrite blockHash full,by rw [taken]; exact nodup,?_⟩
    rw [taken,List.toFinset_cons,← left,← tracks.seen]
  · have room := Nat.not_le.mp full
    have whole : accepted.take (tracker.windowSize - 1) = accepted := List.take_of_length_le (by omega)
    have before := List.take_of_length_le (Nat.le_of_lt room)
    have nodup := tracks.nodup
    rw [before] at fresh nodup
    rw [if_neg (by omega),Nat.min_eq_right (Nat.le_of_lt room)]
    refine ⟨tracks.layout.fill blockHash room,?_,?_⟩
    · rw [taken,whole]
      exact List.nodup_cons.mpr ⟨fresh,nodup⟩
    · rw [taken,whole,List.toFinset_cons,tracks.seen,before]

theorem Tracks.raiseTip (blockNumber : BitVec 64) : Tracks (tracker.raiseTip blockHash blockNumber) accepted := by
  unfold ChainTracker.raiseTip
  split
  · exact ⟨tracks.layout,tracks.nodup,tracks.seen⟩
  · exact tracks

theorem Tracks.markSeen_seen (seen : blockHash ∈ accepted.take tracker.windowSize) (blockNumber : BitVec 64) :
    tracker.markSeen blockHash blockNumber = (false,tracker) :=
  if_pos (tracks.mem_seenSet.mpr seen)

theorem Tracks.markSeen_fresh (fresh : blockHash ∉ accepted.take tracker.windowSize) (blockNumber : BitVec 64) :
    (tracker.markSeen blockHash blockNumber).1 = true ∧
      Tracks (tracker.markSeen blockHash blockNumber).2 (blockHash :: accepted) := by
  unfold markSeen
  rw [if_neg (mt tracks.mem_seenSet.mp fresh)]
  exact ⟨rfl,(tracks.insertSeen fresh).raiseTip blockNumber⟩

end tracks

theorem markSeen_windowSize (tracker : ChainTracker) (blockNumber : BitVec 64) :
    (tracker.markSeen blockHash blockNumber).2.windowSize = tracker.windowSize := by
  unfold markSeen raiseTip insertSeen
  split
  · rfl
  · split <;> split <;> rfl

theorem Tracks.reset (tracks : Tracks tracker accepted) : Tracks tracker.reset [] := by
  have same : tracker.reset.evictionQueue.length = tracker.reset.windowSize := (List.length_map _).trans tracks.layout.size
  have layout := FifoWindow.Layout.start (same ▸ Nat.zero_lt_of_lt tracks.layout.inside)
  rw [same] at layout
  exact ⟨layout,by simp,by simp [ChainTracker.reset]⟩

inductive Call where
  | markSeen (blockHash : Hash256) (blockNumber : BitVec 64)
  | reset

-- A tracker, and the blocks it has accepted since it was last reset, the newest
-- first. The tracker does not store these.
structure Recorded where
  tracker : ChainTracker
  accepted : List (Hash256 × BitVec 64)

def Recorded.perform (recorded : Recorded) : Call → Recorded
  | .markSeen blockHash blockNumber =>
    let (fresh,tracker) := recorded.tracker.markSeen blockHash blockNumber
    ⟨tracker,if fresh then (blockHash,blockNumber) :: recorded.accepted else recorded.accepted⟩
  | .reset => ⟨recorded.tracker.reset,[]⟩

def run (windowSize : Nat) (calls : List Call) : Recorded := calls.foldl Recorded.perform ⟨new windowSize,[]⟩

def highest (accepted : List (Hash256 × BitVec 64)) : Nat := (accepted.map fun block => block.2.toNat).foldr max 0

def firstAt (accepted : List (Hash256 × BitVec 64)) (blockNumber : BitVec 64) : Option Hash256 :=
  (accepted.reverse.find? fun block => block.2 = blockNumber).map Prod.fst

theorem le_highest (member : block ∈ accepted) : block.2.toNat ≤ highest accepted := by
  induction accepted with
  | nil => cases member
  | cons newest older ih =>
    rcases List.mem_cons.mp member with rfl | member
    · exact Nat.le_max_left _ _
    · exact Nat.le_trans (ih member) (Nat.le_max_right _ _)

theorem highest_reached (above : 0 < highest accepted) : ∃ block ∈ accepted,block.2.toNat = highest accepted := by
  induction accepted with
  | nil => cases above
  | cons newest older ih =>
    have cut : highest (newest :: older) = max newest.2.toNat (highest older) := rfl
    rcases Nat.le_total (highest older) newest.2.toNat with top | below
    · exact ⟨newest,List.mem_cons_self,by rw [cut,Nat.max_eq_left top]⟩
    · rw [cut,Nat.max_eq_right below] at above ⊢
      obtain ⟨block,member,number⟩ := ih above
      exact ⟨block,List.mem_cons_of_mem _ member,number⟩

structure Follows (windowSize : Nat) (recorded : Recorded) : Prop where
  window : recorded.tracker.windowSize = windowSize
  tracks : Tracks recorded.tracker (recorded.accepted.map Prod.fst)
  tip : recorded.tracker.tipNumber.toNat = highest recorded.accepted
  tipHash : recorded.tracker.tipHash =
    if recorded.tracker.tipNumber = 0#64 then none else firstAt recorded.accepted recorded.tracker.tipNumber

section follows
variable {windowSize : Nat} {recorded : Recorded}

theorem insertSeen_tip (tracker : ChainTracker) :
    (tracker.insertSeen blockHash).tipNumber = tracker.tipNumber ∧ (tracker.insertSeen blockHash).tipHash = tracker.tipHash := by
  unfold insertSeen
  split <;> exact ⟨rfl,rfl⟩

theorem markSeen_tip (fresh : (recorded.tracker.markSeen blockHash blockNumber).1 = true) :
    (recorded.tracker.markSeen blockHash blockNumber).2.tipNumber =
        (if blockNumber > recorded.tracker.tipNumber then blockNumber else recorded.tracker.tipNumber) ∧
      (recorded.tracker.markSeen blockHash blockNumber).2.tipHash =
        if blockNumber > recorded.tracker.tipNumber then some blockHash else recorded.tracker.tipHash := by
  obtain ⟨number,hash⟩ := insertSeen_tip ..
  unfold markSeen at fresh ⊢
  split
  · rename_i seen
    rw [if_pos seen] at fresh
    cases fresh
  · unfold raiseTip
    rw [number]
    split
    · exact ⟨rfl,rfl⟩
    · exact ⟨number,hash⟩

theorem firstAt_above (above : highest recorded.accepted < blockNumber.toNat) :
    firstAt ((blockHash,blockNumber) :: recorded.accepted) blockNumber = some blockHash := by
  have none_ : recorded.accepted.reverse.find? (fun block => block.2 = blockNumber) = none := by
    rw [List.find?_eq_none]
    intro block member same
    have bound := le_highest (List.mem_reverse.mp member)
    rw [of_decide_eq_true same] at bound
    omega
  rw [firstAt,List.reverse_cons,List.find?_append,none_]
  simp

theorem firstAt_reached (reached : ∃ block ∈ recorded.accepted,block.2 = number) :
    firstAt ((blockHash,blockNumber) :: recorded.accepted) number = firstAt recorded.accepted number := by
  obtain ⟨block,member,same⟩ := reached
  have found : (recorded.accepted.reverse.find? fun block => block.2 = number).isSome = true :=
    List.find?_isSome.mpr ⟨block,List.mem_reverse.mpr member,decide_eq_true same⟩
  rw [firstAt,List.reverse_cons,List.find?_append,Option.or_of_isSome found]
  rfl

theorem Follows.accepted (follows : Follows windowSize recorded)
    (fresh : blockHash ∉ (recorded.accepted.map Prod.fst).take recorded.tracker.windowSize) (blockNumber : BitVec 64) :
    Follows windowSize ⟨(recorded.tracker.markSeen blockHash blockNumber).2,(blockHash,blockNumber) :: recorded.accepted⟩ := by
  obtain ⟨window,tracks,tip,tipHash⟩ := follows
  obtain ⟨marked,after⟩ := tracks.markSeen_fresh fresh blockNumber
  obtain ⟨number,hash⟩ := markSeen_tip marked
  have raised : highest ((blockHash,blockNumber) :: recorded.accepted) = max blockNumber.toNat (highest recorded.accepted) := rfl
  refine ⟨(markSeen_windowSize ..).trans window,after,?_,?_⟩
  all_goals dsimp only
  all_goals rw [number]
  all_goals by_cases above : blockNumber > recorded.tracker.tipNumber
  · have higher : highest recorded.accepted < blockNumber.toNat := tip ▸ BitVec.lt_def.mp above
    rw [if_pos above,raised,Nat.max_eq_left (Nat.le_of_lt higher)]
  · have lower : blockNumber.toNat ≤ highest recorded.accepted := tip ▸ BitVec.le_def.mp (BitVec.not_lt.mp above)
    rw [if_neg above,raised,Nat.max_eq_right lower,tip]
  · have higher : highest recorded.accepted < blockNumber.toNat := tip ▸ BitVec.lt_def.mp above
    have positive : blockNumber ≠ 0#64 := by
      rintro rfl
      exact absurd higher (Nat.not_lt_zero _)
    rw [hash,if_pos above,if_pos above,if_neg positive,firstAt_above higher]
  · rw [hash,if_neg above,if_neg above,tipHash]
    split_ifs with positive
    · rfl
    have above : 0 < highest recorded.accepted := by
      rw [← tip]
      exact Nat.pos_of_ne_zero fun zero => positive (BitVec.eq_of_toNat_eq zero)
    obtain ⟨block,member,same⟩ := highest_reached above
    exact (firstAt_reached ⟨block,member,BitVec.eq_of_toNat_eq (same.trans tip.symm)⟩).symm

theorem Follows.perform (follows : Follows windowSize recorded) (call : Call) : Follows windowSize (recorded.perform call) := by
  cases call with
  | markSeen blockHash blockNumber =>
    by_cases seen : blockHash ∈ (recorded.accepted.map Prod.fst).take recorded.tracker.windowSize
    · have same : recorded.perform (.markSeen blockHash blockNumber) = recorded := by
        simp [Recorded.perform,follows.tracks.markSeen_seen seen]
      rwa [same]
    have marked := (follows.tracks.markSeen_fresh seen blockNumber).1
    have next : recorded.perform (.markSeen blockHash blockNumber) =
        ⟨(recorded.tracker.markSeen blockHash blockNumber).2,(blockHash,blockNumber) :: recorded.accepted⟩ := by
      simp [Recorded.perform,marked]
    rw [next]
    exact follows.accepted seen blockNumber
  | reset => exact ⟨follows.window,follows.tracks.reset,rfl,rfl⟩

theorem run_follows (some : 1 ≤ windowSize) (calls : List Call) : Follows windowSize (run windowSize calls) := by
  have window : (new windowSize).windowSize = windowSize := if_neg (Nat.ne_of_gt some)
  have kept (recorded : Recorded) (follows : Follows windowSize recorded) :
      Follows windowSize (calls.foldl Recorded.perform recorded) := by
    induction calls generalizing recorded with
    | nil => exact follows
    | cons call rest ih => exact ih _ (follows.perform call)
  exact kept _ ⟨window,new_tracks ..,rfl,rfl⟩

end follows

def window (windowSize : Nat) (recorded : Recorded) : List Hash256 := (recorded.accepted.take windowSize).map Prod.fst

theorem tracker_is_fifo_window (windowSize : Nat) (some : 1 ≤ windowSize) (calls : List Call) :
    (∀ blockHash blockNumber,((run windowSize calls).tracker.markSeen blockHash blockNumber).1 = true ↔
      blockHash ∉ window windowSize (run windowSize calls)) ∧
    (∀ blockHash,(run windowSize calls).tracker.isSeen blockHash = true ↔ blockHash ∈ window windowSize (run windowSize calls)) ∧
    (run windowSize calls).tracker.seenCount = min windowSize (run windowSize calls).accepted.length ∧
    (run windowSize calls).tracker.tip.toNat = highest (run windowSize calls).accepted ∧
    (run windowSize calls).tracker.tipHash = if (run windowSize calls).tracker.tip = 0#64 then none
      else firstAt (run windowSize calls).accepted (run windowSize calls).tracker.tip := by
  obtain ⟨size,tracks,tip,tipHash⟩ := run_follows some calls
  have inside (blockHash : Hash256) : blockHash ∈ (run windowSize calls).tracker.seenSet ↔
      blockHash ∈ window windowSize (run windowSize calls) := by
    rw [tracks.mem_seenSet,size,window,List.map_take]
  refine ⟨?_,?_,?_,tip,tipHash⟩
  · intro blockHash blockNumber
    rw [← inside,markSeen]
    split
    · rename_i seen
      exact iff_of_false nofun (not_not_intro seen)
    · rename_i fresh
      exact iff_of_true rfl fresh
  · intro blockHash
    rw [← inside,isSeen,decide_eq_true_iff]
  · rw [seenCount,tracks.card,size,List.length_map]

def zeroBlock : Hash256 := FixedBytes.zeros 32

def oneBlock : Hash256 := FixedBytes.ofNat 32 1

def turns : List Call := [.markSeen zeroBlock 7#64,.markSeen oneBlock 7#64,.markSeen oneBlock 9#64,.markSeen zeroBlock 3#64]

theorem turns_in_window : (run 1 turns).accepted = [(zeroBlock,3#64),(oneBlock,7#64),(zeroBlock,7#64)] ∧
    (run 1 turns).tracker.isSeen zeroBlock = true ∧ (run 1 turns).tracker.seenCount = 1 ∧
    (run 1 turns).tracker.tip = 7#64 ∧ (run 1 turns).tracker.tipHash = some zeroBlock := by
  have accepted : (run 1 turns).accepted = [(zeroBlock,3#64),(oneBlock,7#64),(zeroBlock,7#64)] := by decide +kernel
  obtain ⟨_,seen,count,tip,hash⟩ := tracker_is_fifo_window 1 (by decide) turns
  have top : (run 1 turns).tracker.tip = 7#64 := BitVec.eq_of_toNat_eq (by rw [tip,accepted]; decide)
  refine ⟨accepted,(seen zeroBlock).mpr ?_,?_,top,?_⟩
  · rw [window,accepted]
    exact List.mem_cons_self
  · rw [count,accepted]
    rfl
  · rw [hash,top,if_neg (by decide),accepted]
    decide +kernel

end ChainTracker
end EvmRelay
