import EvmRelay.Discv4Client
import EvmRelay.ObjectLists

namespace EvmRelay.Discv4
open Rlp RlpSpec Reader Codec ParseUtility

-- A node entry as it is sent: its address is one of either family.
structure SentNode where
  ip : List UInt8
  family : ip.length = kIPv4Size ∨ ip.length = 16
  udpPort : BitVec 16
  tcpPort : BitVec 16
  nodeId : NodeId
  extra : List (List UInt8)
  whole : ∀ item ∈ extra,IsItem item

namespace SentNode

def fields (node : SentNode) : List UInt8 :=
  encodeString node.ip ++ (encodeScalar node.udpPort.toNat ++ (encodeScalar node.tcpPort.toNat ++ encodeString node.nodeId.toList))

def bytes (node : SentNode) : List UInt8 := encodeList (node.fields ++ node.extra.flatten)

def entry (node : SentNode) : Option NodeEntry :=
  if size : node.ip.length = kIPv4Size then some ⟨⟨node.ip,size⟩,node.udpPort,node.tcpPort,node.nodeId⟩ else none

end SentNode

structure NeighboursPacket where
  lead : FixedBytes kWirePacketTypeOffset
  nodes : List SentNode
  expiration : BitVec 64
  further : List (List UInt8)

def NeighboursPacket.bytes (packet : NeighboursPacket) : List UInt8 :=
  packet.lead.toList ++ kPacketTypeNeighbours ::
    encodeList (encodeList (packet.nodes.flatMap SentNode.bytes) ++ (encodeScalar packet.expiration.toNat ++ packet.further.flatten))

section entries
variable {node : SentNode} {v start rest : ByteView}

theorem skipWhole_items {items : List (List UInt8)} (all : ∀ item ∈ items,IsItem item) (spelled : v.bytes = items.flatten)
    (enough : items.length ≤ fuel) : (skipWhole fuel v).bytes = [] := by
  induction items generalizing fuel v with
  | nil =>
    cases fuel with
    | zero => exact spelled
    | succ fuel => rw [skipWhole,if_pos ((isFinished_iff v).mpr spelled)]; exact spelled
  | cons item items ih =>
    obtain ⟨first,others⟩ := List.forall_mem_cons.mp all
    obtain ⟨rest,front,behind⟩ := v.cut spelled
    cases fuel with
    | zero => cases enough
    | succ fuel =>
      rw [skipWhole,if_neg (first.unfinished front),skipItem_item first front]
      exact ih others behind (Nat.le_of_succ_le_succ enough)

theorem consumed_of (position : start.bytes = taken ++ v.bytes) : sizeSub start.length v.length = taken.length := by
  have total : start.length = taken.length + v.length := by rw [ByteView.length,position,List.length_append]; rfl
  rw [sizeSub_small (by omega) start.length_lt]
  omega

theorem skipNodeRest_items {extra : List (List UInt8)} (all : ∀ item ∈ extra,IsItem item)
    (position : start.bytes = taken ++ v.bytes) (spelled : v.bytes = extra.flatten ++ rest.bytes) :
    skipNodeRest (taken ++ extra.flatten).length start v = rest := by
  rw [skipNodeRest,consumed_of position,List.length_append,Nat.add_sub_cancel_left]
  dsimp only
  have view : (v.substr 0 extra.flatten.length).bytes = extra.flatten := by
    rw [ByteView.substr_bytes,List.drop_zero,spelled,List.take_left]
  have size : (v.substr 0 extra.flatten.length).length = extra.flatten.length := congrArg List.length view
  split_ifs with none
  · have skipped : (skipWhole (v.substr 0 extra.flatten.length).length (v.substr 0 extra.flatten.length)).length = 0 := by
      refine congrArg List.length (skipWhole_items all view ?_)
      rw [size]
      exact items_le_flatten all
    have inside := congrArg List.length spelled
    rw [List.length_append] at inside
    rw [skipped,size,sizeSub_small (Nat.zero_le _) (Nat.lt_of_le_of_lt (Nat.le_of_add_right_le inside.ge) v.fits)]
    exact ByteView.removePrefix_eq spelled
  · have none : extra.flatten = [] := List.length_eq_zero_iff.mp (by omega)
    rw [none] at spelled
    exact ByteView.ext_bytes spelled

theorem readArray_string (count : Nat) (spelled : v.bytes = encodeString payload ++ rest.bytes) :
    readArray count v = if size : payload.length = count then .ok (⟨payload,size⟩,rest) else .error .kUnexpectedLength := by
  rw [readArray,readBytes_complete spelled]
  rfl

theorem readNode_sent (spelled : v.bytes = node.bytes ++ rest.bytes) :
    readNode v = match node.entry with
      | some entry => .ok (entry,rest)
      | none => .error .kUnexpectedLength := by
  obtain ⟨start,headed,inside⟩ := encodeList_opens spelled
  have parts : start.bytes = encodeString node.ip ++ (encodeScalar node.udpPort.toNat ++ (encodeScalar node.tcpPort.toNat ++
      (encodeString node.nodeId.toList ++ (node.extra.flatten ++ rest.bytes)))) := by
    simpa [SentNode.fields] using inside
  obtain ⟨one,parts,first⟩ := start.cut parts
  obtain ⟨two,first,second⟩ := one.cut first
  obtain ⟨three,second,third⟩ := two.cut second
  obtain ⟨four,third,fourth⟩ := three.cut third
  have address := readArray_string kIPv4Size parts
  unfold SentNode.entry
  split_ifs at address with size
  · rw [dif_pos size]
    have id := (readArray_string kNodeIdSize third).trans (dif_pos node.nodeId.2)
    refine bind_ok.mpr ⟨_,headed,bind_ok.mpr ⟨_,address,?_⟩⟩
    refine bind_ok.mpr ⟨_,readUint16_reads one two first,bind_ok.mpr ⟨_,readUint16_reads two three second,?_⟩⟩
    refine bind_ok.mpr ⟨_,id,?_⟩
    have position : start.bytes = node.fields ++ four.bytes := by rw [inside,fourth,List.append_assoc]
    exact congrArg (fun view => Except.ok (_,view)) (skipNodeRest_items node.whole position fourth)
  · rw [dif_neg size,readNode,headed]
    show (readArray kIPv4Size start >>= _) = _
    rw [address]
    rfl

def SentNode.isIPv4 (node : SentNode) : Bool := node.ip.length = kIPv4Size

def entriesOf (nodes : List SentNode) : List NodeEntry := nodes.filterMap SentNode.entry

-- By induction over the entries: the bytes consumed so far stand in front of
-- those that are left.
theorem readNodes_sent {nodes : List SentNode} (spelled : v.bytes = nodes.flatMap SentNode.bytes ++ rest.bytes)
    (position : start.bytes = taken ++ v.bytes) (enough : nodes.length ≤ fuel) :
    readNodes (taken ++ nodes.flatMap SentNode.bytes).length start fuel v = entriesOf (nodes.takeWhile SentNode.isIPv4) := by
  induction nodes generalizing v taken fuel with
  | nil =>
    cases fuel with
    | zero => rfl
    | succ fuel =>
      rw [readNodes,consumed_of position]
      simp [entriesOf]
  | cons node nodes ih =>
    cases fuel with
    | zero => cases enough
    | succ fuel =>
      rw [List.flatMap_cons,List.append_assoc] at spelled
      obtain ⟨view,spelled,behind⟩ := v.cut spelled
      have positive : 0 < node.bytes.length := encodeList_pos _
      have width := congrArg List.length spelled
      rw [List.length_append] at width
      have more : ¬ isFinished v = true := by
        rw [isFinished_iff,← List.length_eq_zero_iff]
        omega
      have inside : ¬ sizeSub start.length v.length ≥ (taken ++ (node :: nodes).flatMap SentNode.bytes).length := by
        rw [consumed_of position,List.length_append,List.flatMap_cons,List.length_append]
        omega
      rw [readNodes,if_neg more,if_neg inside,readNode_sent spelled]
      by_cases size : node.ip.length = kIPv4Size
      · have entry : node.entry = some ⟨⟨node.ip,size⟩,node.udpPort,node.tcpPort,node.nodeId⟩ := dif_pos size
        have position : start.bytes = taken ++ node.bytes ++ view.bytes := by rw [position,spelled,List.append_assoc]
        have later := ih behind position (Nat.le_of_succ_le_succ enough)
        rw [List.append_assoc,← List.flatMap_cons] at later
        have v4 : node.isIPv4 = true := decide_eq_true size
        rw [List.takeWhile_cons_of_pos v4,entriesOf,List.filterMap_cons_some entry,entry]
        exact congrArg (List.cons _) later
      · have entry : node.entry = none := dif_neg size
        have v6 : ¬ node.isIPv4 = true := fun v4 => size (of_decide_eq_true v4)
        rw [List.takeWhile_cons_of_neg v6,entry]
        rfl

end entries

def lastNode (nodeId : NodeId) (nodes : List NodeEntry) : Option NodeEntry :=
  nodes.reverse.find? fun node => node.tcpPort ≠ 0 ∧ node.nodeId = nodeId

def peerOf (node : NodeEntry) : DiscoveredPeer := ⟨node.nodeId,dotted node.ip,node.udpPort,node.tcpPort,none⟩

theorem hexDigits_read (byte : UInt8) : hexNibble (hexAlphabet (byte >>> 4)) = some (byte >>> 4) ∧
    hexNibble (hexAlphabet (byte &&& 0x0f)) = some (byte &&& 0x0f) ∧ (byte >>> 4) <<< 4 ||| (byte &&& 0x0f) = byte := by
  have every : ∀ k : Fin 256,hexNibble (hexAlphabet (UInt8.ofNat k >>> 4)) = some (UInt8.ofNat k >>> 4) ∧
      hexNibble (hexAlphabet (UInt8.ofNat k &&& 0x0f)) = some (UInt8.ofNat k &&& 0x0f) ∧
      (UInt8.ofNat k >>> 4) <<< 4 ||| (UInt8.ofNat k &&& 0x0f) = UInt8.ofNat k := by decide +kernel
  simpa using every ⟨byte.toNat,byte.toNat_lt⟩

theorem nodeKey_read (nodeId : NodeId) : hexPairs (nodeKey nodeId) = some nodeId.toList := by
  unfold nodeKey
  induction nodeId.toList with
  | nil => rfl
  | cons byte rest ih =>
    obtain ⟨high,low,whole⟩ := hexDigits_read byte
    rw [List.flatMap_cons,List.cons_append,List.cons_append,List.nil_append,hexPairs,high,low,ih]
    exact congrArg (fun first => some (first :: rest)) whole

theorem nodeKey_inj (same : nodeKey one = nodeKey other) : one = other := by
  have read := nodeKey_read one
  rw [same,nodeKey_read] at read
  exact (List.Vector.toList_injective (Option.some.inj read)).symm

theorem storePeer_peers : (storePeer handled node).client.peers (nodeKey nodeId) =
      if node.tcpPort ≠ 0 ∧ node.nodeId = nodeId then some (peerOf node) else handled.client.peers (nodeKey nodeId) := by
  unfold storePeer
  by_cases port : node.tcpPort = 0
  · simp [port]
  rw [if_neg port]
  have stored : Function.update handled.client.peers (nodeKey node.nodeId) (some (peerOf node)) (nodeKey nodeId) =
      if node.tcpPort ≠ 0 ∧ node.nodeId = nodeId then some (peerOf node) else handled.client.peers (nodeKey nodeId) := by
    by_cases same : node.nodeId = nodeId
    · rw [same,Function.update_self,if_pos ⟨port,rfl⟩]
    · rw [Function.update_of_ne fun keys => same (nodeKey_inj keys).symm,if_neg fun counts => same counts.2]
  dsimp only
  split
  · exact stored
  · exact stored

theorem storePeers_last : (nodes.foldl storePeer handled).client.peers (nodeKey nodeId) =
      ((lastNode nodeId nodes).map peerOf).or (handled.client.peers (nodeKey nodeId)) := by
  induction nodes using List.reverseRecOn with
  | nil => rfl
  | append_singleton nodes node ih =>
    rw [List.foldl_append,List.foldl_cons,List.foldl_nil,storePeer_peers,ih,lastNode,lastNode,List.reverse_concat,List.find?_cons]
    split_ifs with counts
    · rw [decide_eq_true counts]
      rfl
    · rw [decide_eq_false counts]

def NeighboursPacket.readable (packet : NeighboursPacket) : List SentNode := packet.nodes.takeWhile SentNode.isIPv4

theorem parseNeighbours_sent (packet : NeighboursPacket) (spelled : data.bytes = packet.bytes) :
    parseNeighbours data = entriesOf packet.readable := by
  obtain ⟨_,_,payload⟩ := payload_behind packet.lead spelled
  have outer := payload.trans (List.append_nil _).symm
  obtain ⟨inner,opened,inside⟩ := encodeList_opens outer
  obtain ⟨start,listed,first⟩ := encodeList_opens (inside.trans (List.append_assoc _ _ _))
  obtain ⟨rest,entries,_⟩ := start.cut first
  have enough : packet.nodes.length ≤ start.length := by
    rw [ByteView.length,entries,List.length_append,List.flatMap_def,← List.length_map SentNode.bytes]
    refine Nat.le_trans (pieces_le_flatten ?_) (Nat.le_add_right _ _)
    exact List.forall_mem_map.mpr fun node _ => encodeList_nonempty _
  rw [parseNeighbours,opened]
  dsimp only
  rw [listed]
  exact readNodes_sent entries (show start.bytes = [] ++ start.bytes from rfl) enough

-- An IPv6 address ends the loop over the nodes. What stands behind it counts
-- only if the peer would be the same without it.
theorem neighbours_stored_iff (client : Discv4Client) (sender : Endpoint) (packet : NeighboursPacket) (data : ByteView)
    (spelled : data.bytes = packet.bytes) (solicited : (client.pendingReplies (sender.replyKey kPacketTypeNeighbours)).isSome = true) :
    (∀ nodeId node,lastNode nodeId (entriesOf packet.nodes) = some node →
      (handleNeighbours client data sender).client.peers (nodeKey nodeId) = some (peerOf node)) ↔
    ∀ nodeId node,lastNode nodeId (entriesOf packet.nodes) = some node →
      (lastNode nodeId (entriesOf packet.readable)).map peerOf = some (peerOf node) ∨
      (lastNode nodeId (entriesOf packet.readable) = none ∧ client.peers (nodeKey nodeId) = some (peerOf node)) := by
  obtain ⟨reply,waiting⟩ := Option.isSome_iff_exists.mp solicited
  have handled : handleNeighbours client data sender =
      (entriesOf packet.readable).foldl storePeer ⟨client,[.cancelTimer (sender.replyKey kPacketTypeNeighbours)]⟩ := by
    unfold handleNeighbours
    dsimp only
    rw [waiting,parseNeighbours_sent packet spelled]
  rw [handled]
  refine forall₃_congr fun nodeId node _ => ?_
  rw [storePeers_last]
  cases lastNode nodeId (entriesOf packet.readable) with
  | none => simp
  | some found => simp

def plainNode : SentNode := ⟨[10,0,0,1],.inl rfl,30303,30303,.zeros 64,[],by simp⟩

def plainEntry : NodeEntry := ⟨.copy 4 [10,0,0,1],30303,30303,.zeros 64⟩

def ipv6Node : SentNode := ⟨List.replicate 16 0,.inr rfl,30303,30303,.zeros 64,[],by simp⟩

def neighboursData (nodes : List SentNode) (fits : (NeighboursPacket.bytes ⟨.zeros 97,nodes,60,[]⟩).length < sizeLimit) : ByteView :=
  ⟨NeighboursPacket.bytes ⟨.zeros 97,nodes,60,[]⟩,fits⟩

def askingClient : Discv4Client := ⟨fun _ => none,fun _ => false,fun _ => false,fun _ => some ⟨none,none,.zeros 32⟩,false⟩

def neighbour : Endpoint := ⟨.zeros 4,30303⟩

theorem entry_before_ipv6_stored :
    (handleNeighbours askingClient (neighboursData [plainNode,ipv6Node] (by decide +kernel)) neighbour).client.peers
      (nodeKey (.zeros 64)) = some (peerOf plainEntry) :=
  (neighbours_stored_iff askingClient neighbour ⟨.zeros 97,[plainNode,ipv6Node],60,[]⟩ _ rfl rfl).mpr
    (fun _ _ last => .inl (congrArg (Option.map peerOf) last)) (.zeros 64) plainEntry (by decide +kernel)

theorem entry_behind_ipv6_lost : lastNode (.zeros 64) (entriesOf [ipv6Node,plainNode]) = some plainEntry ∧
    (handleNeighbours askingClient (neighboursData [ipv6Node,plainNode] (by decide +kernel)) neighbour).client.peers
      (nodeKey (.zeros 64)) = none := by
  decide +kernel

end EvmRelay.Discv4
