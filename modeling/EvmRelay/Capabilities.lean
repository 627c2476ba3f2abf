import EvmRelay.MachineWords
import Mathlib.Data.List.Sort

namespace EvmRelay.Rlpx

structure Capability where
  name : List UInt8
  version : UInt8
  deriving DecidableEq

abbrev kBaseProtocolLength : UInt8 := 16
abbrev kUnknownProtocolLength : UInt8 := 1
abbrev kSnapProtocolLength : UInt8 := 8
abbrev kEthProtocolVersion66 : UInt8 := 66
abbrev kEthProtocolVersion68 : UInt8 := 68
abbrev kEthProtocolVersion69 : UInt8 := 69

def negotiateEthVersion (capabilities : List Capability) : UInt8 :=
  capabilities.foldl (fun negotiatedVersion capability =>
    if capability.name ≠ ascii "eth" then negotiatedVersion
    else if (capability.version ≥ kEthProtocolVersion66 ∧ capability.version ≤ kEthProtocolVersion69) ∧
        capability.version > negotiatedVersion then capability.version
    else negotiatedVersion) 0

def capabilityWireLength (capability : Capability) : UInt8 :=
  if capability.name = ascii "eth" then
    if capability.version = kEthProtocolVersion69 then 18
    else if capability.version ≥ kEthProtocolVersion66 ∧ capability.version ≤ kEthProtocolVersion68 then 17
    else 0
  else if capability.name = ascii "snap" then kSnapProtocolLength
  else kUnknownProtocolLength

def capabilityLess (lhs rhs : Capability) : Bool :=
  if lhs.name ≠ rhs.name then lhs.name < rhs.name else lhs.version < rhs.version

-- std::sort by capability_less. Two capabilities that compare equal are equal,
-- so there is one sorted order.
def sortCapabilities (capabilities : List Capability) : List Capability :=
  capabilities.insertionSort (fun lhs rhs => capabilityLess rhs lhs = false)

structure OffsetScan where
  offset : UInt8
  matchedEth : Option Capability
  matchedEthOffset : UInt8
  deriving DecidableEq

def OffsetScan.next (scan : OffsetScan) (capability : Capability) : OffsetScan :=
  let length := capabilityWireLength capability
  if length = 0 then scan
  else if capability.name = ascii "eth" then
    match scan.matchedEth with
    | none => ⟨scan.offset + length,some capability,scan.offset⟩
    | some matched =>
      if capability.version > matched.version then
        let offset := scan.offset - capabilityWireLength matched
        ⟨offset + length,some capability,offset⟩
      else scan
  else { scan with offset := scan.offset + length }

def offsetScan (capabilities : List Capability) : OffsetScan :=
  (sortCapabilities capabilities).foldl OffsetScan.next ⟨kBaseProtocolLength,none,0⟩

def negotiateEthOffset (capabilities : List Capability) : UInt8 :=
  match (offsetScan capabilities).matchedEth with
  | some _ => (offsetScan capabilities).matchedEthOffset
  | none => 0

def Shared (capability : Capability) : Prop :=
  capability.name = ascii "eth" ∧ kEthProtocolVersion66 ≤ capability.version ∧ capability.version ≤ kEthProtocolVersion69

instance (capability : Capability) : Decidable (Shared capability) := inferInstanceAs (Decidable (_ ∧ _))

theorem capabilityLess_iff : capabilityLess lhs rhs = true ↔
    lhs.name < rhs.name ∨ lhs.name = rhs.name ∧ lhs.version < rhs.version := by
  by_cases same : lhs.name = rhs.name
  · simp [capabilityLess,same,List.lt_irrefl]
  · simp [capabilityLess,same]

theorem capabilityLess_false : capabilityLess rhs lhs = false ↔
    lhs.name ≤ rhs.name ∧ (rhs.name = lhs.name → lhs.version ≤ rhs.version) := by
  rw [← Bool.not_eq_true,capabilityLess_iff,not_or,List.not_lt,not_and,UInt8.not_lt]

instance : Std.Total (fun lhs rhs : Capability => capabilityLess rhs lhs = false) where
  total lhs rhs := by
    rw [capabilityLess_false,capabilityLess_false]
    by_cases same : lhs.name = rhs.name
    · rw [same]
      exact (UInt8.le_total lhs.version rhs.version).imp (fun le => ⟨List.le_refl _,fun _ => le⟩)
        (fun le => ⟨List.le_refl _,fun _ => le⟩)
    · exact (List.le_total lhs.name rhs.name).imp (fun le => ⟨le,fun equal => absurd equal.symm same⟩)
        (fun le => ⟨le,fun equal => absurd equal same⟩)

instance : IsTrans Capability (fun lhs rhs : Capability => capabilityLess rhs lhs = false) where
  trans first second third below above := by
    rw [capabilityLess_false] at below above ⊢
    refine ⟨List.le_trans below.1 above.1,?_⟩
    intro equal
    have middle : second.name = first.name := List.le_antisymm (equal ▸ above.1) below.1
    exact UInt8.le_trans (below.2 middle) (above.2 (equal.trans middle.symm))

theorem sortCapabilities_perm (capabilities : List Capability) : (sortCapabilities capabilities).Perm capabilities :=
  List.perm_insertionSort ..

theorem sortCapabilities_sorted : (sortCapabilities capabilities).Pairwise (fun lhs rhs => lhs.name ≤ rhs.name) :=
  (List.pairwise_insertionSort (fun lhs rhs => capabilityLess rhs lhs = false) capabilities).imp
    (fun sorted => ((capabilityLess_false ..).mp sorted).1)

theorem sorted_around (key : List UInt8) (sorted : capabilities.Pairwise (fun lhs rhs => lhs.name ≤ rhs.name)) :
    ∃ below same above : List Capability,capabilities = below ++ (same ++ above) ∧
      (∀ capability ∈ below,capability.name < key) ∧ (∀ capability ∈ same,capability.name = key) ∧
      ∀ capability ∈ above,key < capability.name := by
  induction capabilities with
  | nil => exact ⟨[],[],[],rfl,by simp,by simp,by simp⟩
  | cons first rest ih =>
    obtain ⟨least,sorted⟩ := List.pairwise_cons.mp sorted
    obtain ⟨below,same,above,split,low,equal,high⟩ := ih sorted
    have bound : ∀ capability ∈ below,first.name < key := by
      intro capability member
      exact List.lt_of_le_of_lt (least capability (split ▸ List.mem_append_left _ member)) (low capability member)
    by_cases lower : first.name < key
    · refine ⟨first :: below,same,above,by rw [split]; rfl,?_,equal,high⟩
      simpa using ⟨lower,low⟩
    obtain rfl : below = [] := by
      cases below with
      | nil => rfl
      | cons capability _ => exact absurd (bound capability (List.mem_cons_self ..)) lower
    by_cases here : first.name = key
    · refine ⟨[],first :: same,above,by rw [split]; rfl,by simp,?_,high⟩
      simpa using ⟨here,equal⟩
    have higher : key < first.name := by
      by_contra not
      exact here (List.le_antisymm not lower)
    obtain rfl : same = [] := by
      cases same with
      | nil => rfl
      | cons capability _ =>
        have reached := least capability (split ▸ List.mem_cons_self ..)
        rw [equal capability (List.mem_cons_self ..)] at reached
        exact absurd higher reached
    refine ⟨[],[],first :: above,by rw [split]; rfl,by simp,by simp,?_⟩
    simpa using ⟨higher,high⟩

variable {below above : List Capability}

theorem wireLength_below (low : capability.name < ascii "eth") : capabilityWireLength capability = 1 := by
  have other : capability.name ≠ ascii "eth" := fun equal => List.lt_irrefl _ (equal ▸ low)
  have notSnap : capability.name ≠ ascii "snap" := by
    intro equal
    rw [equal] at low
    exact absurd low (by decide)
  simp [capabilityWireLength,other,notSnap]

theorem wireLength_eth (eth : capability.name = ascii "eth") : capabilityWireLength capability ≠ 0 ↔ Shared capability := by
  simp only [capabilityWireLength,Shared,eth,if_true,true_and,UInt8.le_iff_toNat_le,← UInt8.toNat_inj]
  split
  · rename_i newest
    rw [newest]
    decide
  rename_i older
  have bound : capability.version.toNat ≤ 69 ↔ capability.version.toNat ≤ 68 := by
    have apart : capability.version.toNat ≠ 69 := older
    omega
  change _ ↔ 66 ≤ _ ∧ _ ≤ 69
  rw [bound]
  split_ifs with range
  · exact iff_of_true (by decide) range
  · exact iff_of_false (by decide) range

theorem scan_below (low : ∀ capability ∈ below,capability.name < ascii "eth") :
    below.foldl OffsetScan.next ⟨offset,none,matchedEthOffset⟩ =
      ⟨offset + UInt8.ofNat below.length,none,matchedEthOffset⟩ := by
  induction below generalizing offset with
  | nil => simp
  | cons capability rest ih =>
    have one := low capability (List.mem_cons_self ..)
    have other : capability.name ≠ ascii "eth" := fun equal => List.lt_irrefl _ (equal ▸ one)
    have step : OffsetScan.next ⟨offset,none,matchedEthOffset⟩ capability = ⟨offset + 1,none,matchedEthOffset⟩ := by
      simp [OffsetScan.next,wireLength_below one,other]
    rw [List.foldl_cons,step,ih (fun capability member => low capability (List.mem_cons_of_mem _ member)),
      List.length_cons,Nat.add_comm,UInt8.ofNat_add,UInt8.add_assoc]
    rfl

def Highest (capabilities : List Capability) (version : UInt8) : Prop :=
  ⟨ascii "eth",version⟩ ∈ capabilities ∧ Shared ⟨ascii "eth",version⟩ ∧
    ∀ capability ∈ capabilities,Shared capability → capability.version ≤ version

theorem Highest.unique (one : Highest capabilities version) (two : Highest capabilities other) : version = other :=
  UInt8.le_antisymm (two.2.2 _ one.1 one.2.1) (one.2.2 _ two.1 two.2.1)

def Tracks (capabilities : List Capability) : Option UInt8 → Prop
  | none => ∀ capability ∈ capabilities,¬ Shared capability
  | some version => Highest capabilities version

theorem Tracks.skip (tracks : Tracks seen version)
    (below : Shared capability → ∃ best,version = some best ∧ capability.version ≤ best) :
    Tracks (seen ++ [capability]) version := by
  cases version with
  | none =>
    intro other member
    rcases List.mem_append.mp member with earlier | now
    · exact tracks other earlier
    · cases List.mem_singleton.mp now
      intro shared
      obtain ⟨_,equal,_⟩ := below shared
      cases equal
  | some best =>
    obtain ⟨there,shared,most⟩ := tracks
    refine ⟨List.mem_append_left _ there,shared,?_⟩
    intro other member also
    rcases List.mem_append.mp member with earlier | now
    · exact most other earlier also
    · cases List.mem_singleton.mp now
      obtain ⟨_,equal,bound⟩ := below also
      cases equal
      exact bound

theorem Tracks.take (tracks : Tracks seen version) (shared : Shared capability)
    (above : ∀ best,version = some best → best ≤ capability.version) :
    Tracks (seen ++ [capability]) (some capability.version) := by
  obtain ⟨name,version'⟩ := capability
  obtain rfl : name = ascii "eth" := shared.1
  refine ⟨by simp,shared,?_⟩
  intro other member also
  rcases List.mem_append.mp member with earlier | now
  · cases version with
    | none => exact absurd also (tracks other earlier)
    | some best => exact UInt8.le_trans (tracks.2.2 other earlier also) (above best rfl)
  · cases List.mem_singleton.mp now
    exact UInt8.le_refl _

theorem Tracks.unique (one : Tracks capabilities version) (two : Tracks capabilities other) : version = other := by
  cases version with
  | none =>
    cases other with
    | none => rfl
    | some best => exact absurd two.2.1 (one _ two.1)
  | some best =>
    cases other with
    | none => exact absurd one.2.1 (two _ one.1)
    | some best' => exact congrArg some (Highest.unique one two)

theorem Tracks.transfer (tracks : Tracks seen version)
    (members : ∀ capability,Shared capability → (capability ∈ seen ↔ capability ∈ capabilities)) :
    Tracks capabilities version := by
  cases version with
  | none => exact fun capability member shared => tracks capability ((members capability shared).mpr member) shared
  | some best =>
    obtain ⟨there,shared,most⟩ := tracks
    exact ⟨(members _ shared).mp there,shared,
      fun capability member also => most capability ((members capability also).mpr member) also⟩

theorem negotiateEthVersion_tracks (capabilities : List Capability) :
    Tracks capabilities (if negotiateEthVersion capabilities = 0 then none else some (negotiateEthVersion capabilities)) := by
  induction capabilities using List.reverseRecOn with
  | nil => simp [negotiateEthVersion,Tracks]
  | append_singleton seen capability ih =>
    have step : negotiateEthVersion (seen ++ [capability]) =
        if Shared capability ∧ negotiateEthVersion seen < capability.version then capability.version
        else negotiateEthVersion seen := by
      rw [negotiateEthVersion,List.foldl_append,← negotiateEthVersion]
      by_cases eth : capability.name = ascii "eth"
      · simp [Shared,eth]
      · simp [Shared,eth]
    rw [step]
    split
    · rename_i higher
      have positive : capability.version ≠ 0 := by
        intro zero
        exact absurd (zero ▸ higher.1.2.1) (by decide)
      rw [if_neg positive]
      refine ih.take higher.1 ?_
      intro best equal
      split_ifs at equal
      cases equal
      exact UInt8.le_of_lt higher.2
    · rename_i kept
      refine ih.skip ?_
      intro shared
      have bound : capability.version ≤ negotiateEthVersion seen := by
        by_contra above
        exact kept ⟨shared,UInt8.not_le.mp above⟩
      refine ⟨negotiateEthVersion seen,if_neg ?_,bound⟩
      intro zero
      exact absurd (UInt8.le_trans shared.2.1 (zero ▸ bound)) (by decide)

-- The eth entries leave their base in matched_eth_offset and the highest shared
-- version in matched_eth: a higher one first takes back the length of the one
-- before.
def EthScanned (base : UInt8) (seen : List Capability) (scan : OffsetScan) : Prop :=
  Tracks seen (scan.matchedEth.map Capability.version) ∧
    match scan.matchedEth with
    | none => scan.offset = base
    | some matched => matched.name = ascii "eth" ∧ scan.matchedEthOffset = base ∧
        scan.offset = base + capabilityWireLength matched

theorem ethScanned_next (scanned : EthScanned base seen scan) (eth : capability.name = ascii "eth") :
    EthScanned base (seen ++ [capability]) (scan.next capability) := by
  obtain ⟨offset,matchedEth,matchedEthOffset⟩ := scan
  obtain ⟨tracks,kept⟩ := scanned
  simp only [OffsetScan.next,eth,if_true]
  split_ifs with none_
  · refine ⟨tracks.skip ?_,kept⟩
    intro shared
    exact absurd none_ ((wireLength_eth eth).mpr shared)
  · have shared := (wireLength_eth eth).mp none_
    cases matchedEth with
    | none =>
      obtain rfl : offset = base := kept
      exact ⟨tracks.take shared (by simp),eth,rfl,rfl⟩
    | some matched =>
      obtain ⟨name,here,behind⟩ := kept
      simp only at behind ⊢
      split_ifs with higher
      · have back : offset - capabilityWireLength matched = base := by rw [behind,UInt8.add_sub_cancel]
        refine ⟨tracks.take shared ?_,eth,back,by rw [back]⟩
        intro best equal
        cases equal
        exact UInt8.le_of_lt higher
      · refine ⟨tracks.skip ?_,name,here,behind⟩
        intro _
        exact ⟨matched.version,rfl,UInt8.not_lt.mp higher⟩

theorem scan_eth (eths : ∀ capability ∈ same,capability.name = ascii "eth") (matchedEthOffset : UInt8) :
    EthScanned base same (same.foldl OffsetScan.next ⟨base,none,matchedEthOffset⟩) := by
  induction same using List.reverseRecOn with
  | nil => exact ⟨by simp [Tracks],rfl⟩
  | append_singleton seen capability ih =>
    rw [List.foldl_append]
    exact ethScanned_next (ih (fun other member => eths other (List.mem_append_left _ member)))
      (eths capability (by simp))

theorem scan_above (others : ∀ capability ∈ above,capability.name ≠ ascii "eth") (scan : OffsetScan) :
    (above.foldl OffsetScan.next scan).matchedEth = scan.matchedEth ∧
      (above.foldl OffsetScan.next scan).matchedEthOffset = scan.matchedEthOffset := by
  induction above generalizing scan with
  | nil => exact ⟨rfl,rfl⟩
  | cons capability rest ih =>
    have other := others capability (List.mem_cons_self ..)
    have kept : (scan.next capability).matchedEth = scan.matchedEth ∧
        (scan.next capability).matchedEthOffset = scan.matchedEthOffset := by
      simp only [OffsetScan.next,other,if_false]
      split
      · exact ⟨rfl,rfl⟩
      · exact ⟨rfl,rfl⟩
    obtain ⟨matched,at_⟩ := ih (fun capability member => others capability (List.mem_cons_of_mem _ member))
      (scan.next capability)
    exact ⟨matched.trans kept.1,at_.trans kept.2⟩

theorem sorted_counted (split : (sortCapabilities capabilities) = below ++ (same ++ above))
    (low : ∀ capability ∈ below,capability.name < ascii "eth") (eths : ∀ capability ∈ same,capability.name = ascii "eth")
    (high : ∀ capability ∈ above,ascii "eth" < capability.name) :
    capabilities.countP (fun capability => capability.name < ascii "eth") = below.length := by
  have none_ : (same ++ above).countP (fun capability => capability.name < ascii "eth") = 0 := by
    rw [List.countP_eq_zero]
    intro capability member
    rcases List.mem_append.mp member with here | higher
    · simp [eths capability here,List.lt_irrefl]
    · simpa using List.le_of_lt (high capability higher)
  have all : below.countP (fun capability => capability.name < ascii "eth") = below.length :=
    List.countP_eq_length.mpr (fun capability member => by simpa using low capability member)
  rw [← (sortCapabilities_perm ..).countP_eq,split,List.countP_append,none_,all,Nat.add_zero]

theorem offsetScan_exact (capabilities : List Capability) :
    Tracks capabilities ((offsetScan capabilities).matchedEth.map Capability.version) ∧
    ∀ matched,(offsetScan capabilities).matchedEth = some matched → matched.name = ascii "eth" ∧
      (offsetScan capabilities).matchedEthOffset =
        16 + UInt8.ofNat (capabilities.countP (fun capability => capability.name < ascii "eth")) := by
  obtain ⟨below,same,above,split,low,eths,high⟩ := sorted_around (ascii "eth") (sortCapabilities_sorted ..)
  have notEth : ∀ capability ∈ above,capability.name ≠ ascii "eth" :=
    fun capability member equal => List.lt_irrefl _ (equal ▸ high capability member)
  rw [sorted_counted split low eths high,offsetScan,split,List.foldl_append,List.foldl_append,scan_below low]
  obtain ⟨tracks,kept⟩ := scan_eth eths ..
  obtain ⟨matchedSame,offsetSame⟩ := scan_above notEth
    (same.foldl OffsetScan.next ⟨kBaseProtocolLength + UInt8.ofNat below.length,none,0⟩)
  rw [matchedSame,offsetSame]
  refine ⟨tracks.transfer ?_,?_⟩
  · intro capability shared
    rw [← (sortCapabilities_perm capabilities).mem_iff,split,List.mem_append,List.mem_append]
    have notBelow : capability ∉ below := fun member => List.lt_irrefl _ (shared.1 ▸ low capability member)
    have notAbove : capability ∉ above := fun member => notEth capability member shared.1
    simp [notBelow,notAbove]
  · intro matched found
    rw [found] at kept
    exact ⟨kept.1,kept.2.1⟩

theorem eth_offset_exact (capabilities : List Capability) :
    (negotiateEthOffset capabilities).toNat = (if ∃ capability ∈ capabilities,Shared capability then
      (16 + capabilities.countP (fun capability => capability.name < ascii "eth")) % 256 else 0) ∧
    (offsetScan capabilities).matchedEth = (if ∃ capability ∈ capabilities,Shared capability then
      some ⟨ascii "eth",negotiateEthVersion capabilities⟩ else none) ∧
    (if ∃ capability ∈ capabilities,Shared capability then Highest capabilities (negotiateEthVersion capabilities)
      else negotiateEthVersion capabilities = 0) := by
  obtain ⟨tracks,matchedAt⟩ := offsetScan_exact capabilities
  have negotiated := negotiateEthVersion_tracks capabilities
  have same := tracks.unique negotiated
  by_cases shared : ∃ capability ∈ capabilities,Shared capability
  · have ⟨capability,member,also⟩ := shared
    have positive : negotiateEthVersion capabilities ≠ 0 := by
      intro zero
      rw [if_pos zero] at negotiated
      exact negotiated capability member also
    rw [if_neg positive] at same negotiated
    obtain ⟨matched,found,version⟩ := Option.map_eq_some_iff.mp same
    obtain ⟨name,offset⟩ := matchedAt matched found
    refine ⟨?_,?_,?_⟩
    · rw [if_pos shared,negotiateEthOffset,found]
      simp [offset,UInt8.toNat_add]
    · rw [if_pos shared,found,← name,← version]
    · rw [if_pos shared]
      exact negotiated
  · have zero : negotiateEthVersion capabilities = 0 := by
      by_contra positive
      rw [if_neg positive] at negotiated
      exact shared ⟨_,negotiated.1,negotiated.2.1⟩
    rw [if_pos zero,Option.map_eq_none_iff] at same
    refine ⟨?_,?_,?_⟩
    · rw [if_neg shared,negotiateEthOffset,same]
      rfl
    · rw [if_neg shared,same]
    · rw [if_neg shared,zero]

theorem unshared_capability_counts : ∃ capabilities : List Capability,
    (∃ capability ∈ capabilities,Shared capability) ∧ negotiateEthOffset capabilities ≠ 16 :=
  ⟨[⟨ascii "abc",1⟩,⟨ascii "eth",69⟩],by decide,by decide⟩

end EvmRelay.Rlpx
