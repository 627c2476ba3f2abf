import EvmRelay.Discv5Crawler
import EvmRelay.Worklist
import Mathlib.Data.Prod.Lex

namespace EvmRelay.Discv5
open ParseUtility Discv4 Worklist

local instance textLawfulBEq : LawfulBEq Text := inferInstance

abbrev kRootPrefix : Text := ascii "enrtree-root:v1"
abbrev kBranchPrefix : Text := ascii "enrtree-branch:"
abbrev kEnrPrefix : Text := ascii "enr:"
abbrev kMaxTreeLookups : Nat := 8192

-- std::isspace in the C locale.
def isspace (c : UInt8) : Bool := c = 0x20 || (0x09 ≤ c && c ≤ 0x0d)

def trimCopy (value : Text) : Text := ((value.dropWhile isspace).reverse.dropWhile isspace).reverse

-- What operator>> reads from a stream, one token after the other.
def tokens (text : Text) : List Text := (text.splitOnP isspace).filter (· ≠ [])

def rootEntryLabel (root : Text) : Text :=
  match (tokens root).find? fun token => (ascii "e=").isPrefixOf token with
  | some token => token.drop 2
  | none => []

def pushLabel (part : Text) : List Text := if trimCopy part = [] then [] else [trimCopy part]

-- while (!rest.empty()). A round that goes on has taken a comma, so the text's
-- length bounds the rounds.
def splitLabels : Nat → Text → List Text
  | 0,_ => []
  | fuel + 1,rest =>
    if rest = [] then []
    else
      match rest.findIdx? (· = 0x2c) with
      | none => pushLabel rest
      | some comma => pushLabel (rest.take comma) ++ splitLabels fuel (rest.drop (comma + 1))

def splitBranchLabels (branch : Text) : List Text :=
  if ¬ kBranchPrefix.isPrefixOf branch then []
  else splitLabels (branch.drop kBranchPrefix.length).length (branch.drop kBranchPrefix.length)

-- The locals of resolve_url. Of `asked` no code reads anything: the labels it has
-- called lookup_ for.
structure TreeWalk where
  out : List Text
  pendingLabels : List Text
  seenLabels : List Text
  lookups : Nat
  asked : List Text
  deriving DecidableEq

-- resolve_url is noexcept: what leaves its bounds below it ends the process.
abbrev TreeState := Checked Enr.Discv5Error TreeWalk

section resolver
variable (crypto : Enr.Crypto) (text : Enr.AddressText) (lookup : Text → List Text)

-- The test of append_valid_enr, whose caller holds out.
def appendValidEnr (entry : Text) : Checked Enr.Discv5Error Bool :=
  if ¬ kEnrPrefix.isPrefixOf entry then .ok false else (enrPeer crypto text entry).map Option.isSome

def validEnr (entry : Text) : Bool := decide (appendValidEnr crypto text entry = .ok true)

-- At this entry the record parser leaves its bounds.
def Aborts (entry : Text) : Prop :=
  kEnrPrefix.isPrefixOf entry = true ∧ Enr.parse crypto text entry = .error .outOfBounds

def rootLabels (domain : Text) : List Text :=
  (lookup domain).filterMap fun root =>
    if ¬ kRootPrefix.isPrefixOf root then none
    else if rootEntryLabel root = [] then none
    else some (rootEntryLabel root)

def entryName (domain label : Text) : Text := label ++ (ascii "." ++ domain)

def treeRunning (maxRecords : Nat) : TreeState → Bool
  | .ok walk => walk.pendingLabels ≠ [] ∧ walk.out.length < maxRecords ∧ walk.lookups < kMaxTreeLookups
  | .error _ => false

def entryRecords (rawEntries : List Text) : List Text := (rawEntries.map trimCopy).filter (validEnr crypto text)

def entryLabels (rawEntries : List Text) : List Text :=
  ((rawEntries.map trimCopy).filter fun entry => ¬ validEnr crypto text entry).flatMap splitBranchLabels

def labelRecords (domain label : Text) : List Text := entryRecords crypto text (lookup (entryName domain label))

def labelChildren (domain label : Text) : List Text := entryLabels crypto text (lookup (entryName domain label))

def Sound (domain label : Text) : Prop := ∀ rawEntry ∈ lookup (entryName domain label),¬ Aborts crypto text (trimCopy rawEntry)

-- No entry that the tree leads to makes the record parser leave its bounds.
def SoundTree (domain : Text) : Prop :=
  ∀ label,Reachable (rootLabels lookup domain) (labelChildren crypto text lookup domain) label →
    Sound crypto text lookup domain label

end resolver

section walk
variable {crypto : Enr.Crypto} {text : Enr.AddressText} {lookup : Text → List Text} {domain : Text}

theorem appendValidEnr_cases (crypto : Enr.Crypto) (text : Enr.AddressText) (entry : Text) :
    (Aborts crypto text entry ∧ appendValidEnr crypto text entry = .error .outOfBounds) ∨
      (¬ Aborts crypto text entry ∧ appendValidEnr crypto text entry = .ok (validEnr crypto text entry)) := by
  by_cases named : kEnrPrefix.isPrefixOf entry = true
  · cases parsed : Enr.parse crypto text entry with
    | error failure => cases failure <;> simp [Aborts,validEnr,appendValidEnr,enrPeer,named,parsed,Except.map]
    | ok record => cases found : recordPeer? record <;> simp [Aborts,validEnr,appendValidEnr,enrPeer,named,parsed,found,Except.map]
  · simp [Aborts,validEnr,appendValidEnr,named]

theorem aborts_iff : appendValidEnr crypto text entry = .error .outOfBounds ↔ Aborts crypto text entry := by
  rcases appendValidEnr_cases crypto text entry with ⟨aborts,told⟩ | ⟨sound,told⟩ <;> simp [*]

instance : Decidable (Aborts crypto text entry) := decidable_of_iff _ aborts_iff

def TreeWalk.after (crypto : Enr.Crypto) (text : Enr.AddressText) (walk : TreeWalk) (read : List Text) : TreeWalk :=
  { walk with
    out := walk.out ++ entryRecords crypto text read
    pendingLabels := walk.pendingLabels ++ (entryLabels crypto text read).filter fun child => child ∉ walk.seenLabels }

variable (crypto text maxRecords) in
def ReadUpTo (rawEntries read : List Text) (walk : TreeWalk) : Prop :=
  read <+: rawEntries ∧ (read = rawEntries ∧ (walk.after crypto text read).out.length < maxRecords ∨
    (walk.after crypto text read).out.length = maxRecords)

theorem ReadUpTo.cons {read rest : List Text} (same : walk.after crypto text (rawEntry :: read) = next.after crypto text read)
    (upTo : ReadUpTo crypto text maxRecords rest read next) :
    ReadUpTo crypto text maxRecords (rawEntry :: rest) (rawEntry :: read) walk := by
  obtain ⟨front,ended⟩ := upTo
  refine ⟨List.cons_prefix_cons.mpr ⟨rfl,front⟩,?_⟩
  rw [same]
  exact ended.imp_left fun all => ⟨congrArg _ all.1,all.2⟩

variable (crypto text lookup domain maxRecords) in
-- Where resolve_url stands: every label seen was asked for once, and as long as out
-- is not full it holds the records of all of them and the search has missed nothing.
structure Walked (walk : TreeWalk) : Prop where
  asked : walk.asked = walk.seenLabels
  counted : walk.lookups = walk.seenLabels.length
  bounded : walk.lookups ≤ kMaxTreeLookups
  few : walk.out.length ≤ maxRecords
  once : walk.seenLabels.Nodup
  reached : ∀ label ∈ walk.seenLabels,Reachable (rootLabels lookup domain) (labelChildren crypto text lookup domain) label
  front : walk.out <+: walk.seenLabels.flatMap (labelRecords crypto text lookup domain)
  whole : walk.out.length < maxRecords → walk.out = walk.seenLabels.flatMap (labelRecords crypto text lookup domain) ∧
    Frontier (rootLabels lookup domain) (labelChildren crypto text lookup domain) walk.pendingLabels walk.seenLabels ∧
    ∀ label ∈ walk.seenLabels,Sound crypto text lookup domain label

theorem treeRunning_iff : treeRunning maxRecords (.ok walk) = true ↔
    walk.pendingLabels ≠ [] ∧ walk.out.length < maxRecords ∧ walk.lookups < kMaxTreeLookups := decide_eq_true_iff

theorem Walked.all (walked : Walked crypto text lookup domain maxRecords walk)
    (stopped : treeRunning maxRecords (.ok walk) = false) {labels : List Text} (distinct : labels.Nodup)
    (reachable : ∀ label,label ∈ labels ↔ Reachable (rootLabels lookup domain) (labelChildren crypto text lookup domain) label)
    (small : labels.length ≤ kMaxTreeLookups)
    (records : (labels.flatMap (labelRecords crypto text lookup domain)).length < maxRecords) :
    walk.out.Perm (labels.flatMap (labelRecords crypto text lookup domain)) ∧ SoundTree crypto text lookup domain := by
  have inside := List.subperm_of_subset walked.once fun label member => (reachable label).mpr (walked.reached label member)
  have below : walk.out.length < maxRecords := by
    have some := walked.front.length_le
    obtain ⟨part,same,sub⟩ := inside
    have more := (sub.flatMap (labelRecords crypto text lookup domain)).length_le
    rw [(same.flatMap_right (labelRecords crypto text lookup domain)).length_eq] at more
    omega
  obtain ⟨out,frontier,sound⟩ := walked.whole below
  have finished : walk.pendingLabels = [] ∨ labels.length ≤ walk.seenLabels.length := by
    by_contra going
    rw [not_or] at going
    have running : treeRunning maxRecords (.ok walk) = true := by
      refine treeRunning_iff.mpr ⟨going.1,below,?_⟩
      have counted := walked.counted
      omega
    exact absurd (running.symm.trans stopped) nofun
  have same := frontier.exhausted distinct reachable finished
  rw [out]
  exact ⟨same.flatMap_right _,fun label led => sound label (same.mem_iff.mpr ((reachable label).mpr led))⟩

end walk

end EvmRelay.Discv5
