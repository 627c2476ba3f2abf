import EvmRelay.EthPeerQueue
import EvmRelay.RoundRobin
import Mathlib.Data.List.Rotate

namespace EvmRelay.Eth
open Discv4 RoundRobin

def rotateCachedPeers (cachePeerStartOffset : BitVec 64) (peers : List ValidatedPeer) : List ValidatedPeer :=
  if peers.length ≤ 1 ∨ cachePeerStartOffset = 0 then peers
  else
    let offset := cachePeerStartOffset.toNat % peers.length
    if offset = 0 then peers else peers.drop offset ++ peers.take offset

-- One round of the inner loop. Products and sums of size_t wrap, and reading
-- behind the last peer is undefined.
def spreadBand (peers : List ValidatedPeer) (bandCount offset : Nat) (spread : List ValidatedPeer) (band : Nat) :
    Option (List ValidatedPeer) :=
  let start := peers.length * band % sizeLimit / bandCount
  let stop := peers.length * (band + 1) % sizeLimit / bandCount
  let index := sizeAdd start offset
  if index < stop then peers[index]?.map fun peer => spread ++ [peer] else some spread

def spreadRound (peers : List ValidatedPeer) (bandCount offset : Nat) (spread : List ValidatedPeer) : Option (List ValidatedPeer) :=
  (List.range bandCount).foldlM (spreadBand peers bandCount offset) spread

-- The outer loop has no bound of its own; it is not over where the fuel is.
def spreadFrom (peers : List ValidatedPeer) (bandCount : Nat) : Nat → Nat → List ValidatedPeer → Option (List ValidatedPeer)
  | 0,_,spread => if spread.length < peers.length then none else some spread
  | fuel + 1,offset,spread =>
    if spread.length < peers.length then do
      let spread ← spreadRound peers bandCount offset spread
      spreadFrom peers bandCount fuel (offset + 1) spread
    else some spread

def spreadCachedPeersForDialSlots (fuel : Nat) (configuredSlots : Option Int) (peers : List ValidatedPeer) :
    Option (List ValidatedPeer) :=
  match configuredSlots with
  | none => some peers
  | some configuredSlots =>
    if peers.length ≤ 1 ∨ configuredSlots ≤ 1 then some peers
    else
      let bandCount := min peers.length configuredSlots.toNat
      if bandCount ≤ 1 then some peers else spreadFrom peers bandCount fuel 0 []

theorem rotateCachedPeers_eq : rotateCachedPeers cachePeerStartOffset peers = peers.rotate cachePeerStartOffset.toNat := by
  unfold rotateCachedPeers
  dsimp only
  split
  · rename_i still
    rcases still with few | zero
    · match peers,few with
      | [],_ => rw [List.rotate_nil]
      | [peer],_ => rw [List.rotate_singleton]
    · rw [zero]
      exact (List.rotate_zero peers).symm
  · rw [List.rotate_eq_drop_append_take_mod]
    split_ifs with whole
    · rw [whole]
      simp
    · rfl

theorem foldlM_append {piece : κ → List α} {keys : List κ}
    (steps : ∀ key ∈ keys,∀ items,step items key = some (items ++ piece key)) (items : List α) :
    keys.foldlM step items = some (items ++ keys.flatMap piece) := by
  induction keys generalizing items with
  | nil => simp
  | cons key rest ih =>
    rw [List.foldlM_cons,steps key List.mem_cons_self]
    simpa using ih (fun key member => steps key (List.mem_cons_of_mem _ member)) (items ++ piece key)

theorem spreadBand_eq (some : 2 ≤ bandCount) (fits : peers.length * bandCount < sizeLimit) (near : offset ≤ peers.length)
    (key : Nat) (inside : key < bandCount) (spread : List ValidatedPeer) :
    spreadBand peers bandCount offset spread key = .some (spread ++ (band peers bandCount key)[offset]?.toList) := by
  have positive : 0 < bandCount := by omega
  have twice : peers.length * 2 ≤ peers.length * bandCount := Nat.mul_le_mul_left _ some
  have start : peers.length * key % sizeLimit / bandCount = cut peers.length bandCount key := by
    rw [Nat.mod_eq_of_lt (Nat.lt_of_le_of_lt (Nat.mul_le_mul_left _ inside.le) fits)]
    rfl
  have stop : peers.length * (key + 1) % sizeLimit / bandCount = cut peers.length bandCount (key + 1) := by
    rw [Nat.mod_eq_of_lt (Nat.lt_of_le_of_lt (Nat.mul_le_mul_left _ inside) fits)]
    rfl
  have low := cut_le peers.length positive inside.le
  have index : sizeAdd (cut peers.length bandCount key) offset = cut peers.length bandCount key + offset :=
    sizeAdd_small (by omega)
  unfold spreadBand
  dsimp only
  rw [start,stop,index,band_getElem?]
  split_ifs with before
  · have high := cut_le peers.length positive inside
    rw [List.getElem?_eq_getElem (Nat.lt_of_lt_of_le before high)]
    rfl
  · simp

theorem spreadRound_eq (some : 2 ≤ bandCount) (fits : peers.length * bandCount < sizeLimit) (near : offset ≤ peers.length)
    (spread : List ValidatedPeer) :
    spreadRound peers bandCount offset spread = .some (spread ++ round (band peers bandCount) (List.range bandCount) offset) :=
  foldlM_append (fun key member => spreadBand_eq some fits near key (List.mem_range.mp member)) ..

theorem spreadFrom_more (ran : spreadFrom peers bandCount fuel offset spread = some result) (enough : fuel ≤ more) :
    spreadFrom peers bandCount more offset spread = some result := by
  induction fuel generalizing more offset spread with
  | zero =>
    unfold spreadFrom at ran
    split_ifs at ran with long
    cases ran
    cases more <;> rw [spreadFrom,if_neg long]
  | succ fuel ih =>
    cases more with
    | zero => exact absurd enough (Nat.not_succ_le_zero fuel)
    | succ more =>
      unfold spreadFrom at ran ⊢
      split_ifs at ran with short
      · rw [if_pos short]
        obtain ⟨next,one,rest⟩ := Option.bind_eq_some_iff.mp ran
        exact Option.bind_eq_some_iff.mpr ⟨next,one,ih rest (Nat.le_of_succ_le_succ enough)⟩
      · rw [if_neg short]
        exact ran

theorem spreadFrom_ends (some : 2 ≤ bandCount) (fits : peers.length * bandCount < sizeLimit) (fuel : Nat) (near : offset ≤ peers.length)
    (enough : peers.length ≤ offset + fuel) :
    ∃ count,peers.length ≤ (rounds (band peers bandCount) (List.range bandCount) count).length ∧
      spreadFrom peers bandCount fuel offset (rounds (band peers bandCount) (List.range bandCount) offset) =
        .some (rounds (band peers bandCount) (List.range bandCount) count) := by
  have all : (rounds (band peers bandCount) (List.range bandCount) peers.length).length = peers.length := by
    rw [rounds_enough fun key _ => band_length_le peers bandCount key,bands_whole peers (by omega)]
  induction fuel generalizing offset with
  | zero =>
    have last : offset = peers.length := by omega
    subst last
    refine ⟨peers.length,all.ge,?_⟩
    rw [spreadFrom,if_neg (by omega)]
  | succ fuel ih =>
    by_cases short : (rounds (band peers bandCount) (List.range bandCount) offset).length < peers.length
    · have before : offset < peers.length := by
        rcases Nat.lt_or_eq_of_le near with before | last
        · exact before
        · subst last
          omega
      obtain ⟨count,long,ends⟩ := ih before (by omega)
      refine ⟨count,long,?_⟩
      rw [spreadFrom,if_pos short,spreadRound_eq some fits near]
      exact ends
    · exact ⟨offset,Nat.le_of_not_lt short,by rw [spreadFrom,if_neg short]⟩

theorem first_round (some : 2 ≤ bandCount) (few : bandCount ≤ peers.length) (inside : key < bandCount) :
    (round (band peers bandCount) (List.range bandCount) 0)[key]? = peers[cut peers.length bandCount key]? := by
  have positive : 0 < bandCount := by omega
  have front : ∀ key,(band peers bandCount key)[0]? = peers[cut peers.length bandCount key]? := by
    intro key
    rw [band_getElem?,Nat.add_zero,if_pos (cut_lt key positive few)]
  have full : ∀ key ∈ List.range bandCount,((band peers bandCount key)[0]?).isSome := by
    intro key member
    have below := Nat.lt_of_lt_of_le (cut_lt key positive few) (cut_le peers.length positive (List.mem_range.mp member))
    rw [front,List.getElem?_eq_getElem below]
    rfl
  rw [round_getElem? full,List.getElem?_range inside]
  exact front key

theorem spread_bands (some : 2 ≤ bandCount) (few : bandCount ≤ peers.length) (fits : peers.length * bandCount < sizeLimit) :
    ∃ spread,(∀ fuel,peers.length ≤ fuel → spreadFrom peers bandCount fuel 0 [] = .some spread) ∧ spread.Perm peers ∧
      ∀ k < bandCount,spread[k]? = peers[peers.length * k / bandCount]? := by
  have positive : 0 < bandCount := by omega
  have whole := bands_whole peers positive
  obtain ⟨count,long,ends⟩ := spreadFrom_ends some fits peers.length (Nat.zero_le peers.length) (by omega)
  refine ⟨rounds (band peers bandCount) (List.range bandCount) count,fun fuel enough => spreadFrom_more ends enough,?_,fun k inside => ?_⟩
  · have perm := rounds_whole (Nat.le_trans (Nat.le_of_eq (congrArg List.length whole)) long)
    rwa [whole] at perm
  · have started : 0 < count := by
      rcases Nat.eq_zero_or_pos count with rfl | started
      · simp only [rounds,List.length_nil] at long
        omega
      · exact started
    obtain ⟨rest,first⟩ := rounds_first started
    have entry := first_round some few inside
    have below := Nat.lt_of_lt_of_le (cut_lt k positive few) (cut_le peers.length positive inside)
    rw [List.getElem?_eq_getElem below] at entry
    rw [first,List.getElem?_append_left (List.getElem?_eq_some_iff.mp entry).1,entry]
    exact (List.getElem?_eq_getElem below).symm

theorem spreadCachedPeersForDialSlots_spec
    (fits : ∀ slots,configuredSlots = some slots → peers.length * slots.toNat < sizeLimit) :
    ∃ spread,(∀ fuel,peers.length ≤ fuel → spreadCachedPeersForDialSlots fuel configuredSlots peers = some spread) ∧
      spread.Perm peers ∧
      ∀ slots bandCount,configuredSlots = some slots → bandCount = min peers.length slots.toNat → 1 < bandCount →
        ∀ k < bandCount,spread[k]? = peers[peers.length * k / bandCount]? := by
  cases configuredSlots with
  | none => exact ⟨peers,fun _ _ => rfl,.refl _,nofun⟩
  | some slots =>
    unfold spreadCachedPeersForDialSlots
    dsimp only
    by_cases bands : 1 < min peers.length slots.toNat
    · have several : ¬ (peers.length ≤ 1 ∨ slots ≤ 1) := by omega
      have small : peers.length * min peers.length slots.toNat < sizeLimit :=
        Nat.lt_of_le_of_lt (Nat.mul_le_mul_left _ (Nat.min_le_right _ _)) (fits slots rfl)
      obtain ⟨spread,ends,perm,first⟩ := spread_bands bands (Nat.min_le_left _ _) small
      refine ⟨spread,fun fuel enough => ?_,perm,?_⟩
      · rw [if_neg several,if_neg (Nat.not_le.mpr bands)]
        exact ends fuel enough
      · rintro _ bandCount ⟨⟩ rfl _
        exact first
    · refine ⟨peers,fun fuel _ => ?_,.refl _,?_⟩
      · split
        · rfl
        · rw [if_pos (Nat.le_of_not_lt bands)]
      · rintro _ bandCount ⟨⟩ rfl more
        exact absurd more bands

theorem preload_loses_nobody (cachePeerStartOffset : BitVec 64) (configuredSlots : Option Int) (peers : List ValidatedPeer)
    (fits : ∀ slots,configuredSlots = some slots → peers.length * slots.toNat < sizeLimit) :
    ∃ spread,(∀ fuel,peers.length ≤ fuel →
        spreadCachedPeersForDialSlots fuel configuredSlots (rotateCachedPeers cachePeerStartOffset peers) = some spread) ∧
      spread.Perm peers ∧
      ∀ slots bandCount,configuredSlots = some slots → bandCount = min peers.length slots.toNat → 1 < bandCount →
        ∀ k < bandCount,∃ peer,spread[k]? = some peer ∧
          (rotateCachedPeers cachePeerStartOffset peers)[peers.length * k / bandCount]? = some peer ∧
          peers[(peers.length * k / bandCount + cachePeerStartOffset.toNat) % peers.length]? = some peer := by
  rw [rotateCachedPeers_eq]
  have size : (peers.rotate cachePeerStartOffset.toNat).length = peers.length := List.length_rotate ..
  obtain ⟨spread,ends,perm,first⟩ := spreadCachedPeersForDialSlots_spec
    (by rw [size]; exact fits)
  rw [size] at ends first
  refine ⟨spread,ends,perm.trans (List.rotate_perm ..),fun slots bandCount configured bands more k inside => ?_⟩
  have below := Nat.lt_of_lt_of_le (cut_lt k (by omega) (by omega)) (cut_le peers.length (by omega) inside)
  have rotated : (peers.rotate cachePeerStartOffset.toNat)[peers.length * k / bandCount]? = _ := List.getElem?_rotate below
  obtain ⟨peer,present⟩ : ∃ peer,(peers.rotate cachePeerStartOffset.toNat)[peers.length * k / bandCount]? = some peer :=
    ⟨_,List.getElem?_eq_getElem (Nat.lt_of_lt_of_eq below size.symm)⟩
  exact ⟨peer,(first slots bandCount configured bands more k inside).trans present,present,rotated.symm.trans present⟩

def numberedPeer (node : Nat) : ValidatedPeer := Feeding.discoveredCandidate ⟨.ofNat 64 node,[],0,30303,none⟩

theorem five_peers_spread : ∃ spread,
    spreadCachedPeersForDialSlots 5 (some 2) (rotateCachedPeers 1 ([1,2,3,4,5].map numberedPeer)) = some spread ∧
    spread.Perm ([1,2,3,4,5].map numberedPeer) ∧ spread = [2,4,3,5,1].map numberedPeer := by
  obtain ⟨spread,ends,perm,_⟩ := preload_loses_nobody 1 (some 2) ([1,2,3,4,5].map numberedPeer) (by rintro _ ⟨⟩; decide)
  have order : spreadCachedPeersForDialSlots 5 (some 2) (rotateCachedPeers 1 ([1,2,3,4,5].map numberedPeer)) =
    some ([2,4,3,5,1].map numberedPeer) := by decide +kernel
  have result := ends 5 (by decide)
  exact ⟨spread,result,perm,Option.some.inj (result.symm.trans order)⟩

end EvmRelay.Eth
