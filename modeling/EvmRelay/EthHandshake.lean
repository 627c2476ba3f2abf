import EvmRelay.EthStatus

namespace EvmRelay.Eth
open Rlp RlpSpec Reader Codec

abbrev kDisconnectMessageId : UInt8 := 0x01

-- rlpx::protocol::Message
structure ProtocolMessage where
  id : UInt8
  payload : StdVector UInt8
  deriving DecidableEq

inductive StatusValidationError where
  | kProtocolVersionMismatch | kNetworkIDMismatch | kGenesisMismatch | kInvalidBlockRange
  deriving DecidableEq

def normalizeEthWireMessageId (wireMessageId negotiatedEthOffset : UInt8) : Option UInt8 :=
  if wireMessageId < negotiatedEthOffset then none else some (wireMessageId - negotiatedEthOffset)

-- DisconnectMessage::decode. It does not fail; the reason is any byte.
def decodeDisconnect (rlpData : ByteView) : UInt8 :=
  match rlpData.bytes with
  | [] => 0
  | first :: _ =>
    match readListHeaderBytes rlpData with
    | .error _ => first
    | .ok (size,view) =>
      if size = 0 then 0
      else
        match readBytes view with
        | .error _ => 0
        | .ok (reasonBytes,_) => reasonBytes.headD 0

def buildLocalStatusMessage (negotiatedProtocolVersion : UInt8) (networkId : BitVec 64) (genesisHash : Hash256) (forkId : ForkId) :
    StatusMessage :=
  if negotiatedProtocolVersion ≤ 68 then .v68 ⟨negotiatedProtocolVersion,networkId,0,genesisHash,genesisHash,forkId⟩
  else .v69 ⟨negotiatedProtocolVersion,networkId,genesisHash,forkId,0,0,genesisHash⟩

def validateStatus (msg : StatusMessage) (expectedNetworkId : BitVec 64) (expectedGenesis : Hash256) :
    Except StatusValidationError Unit :=
  if (getCommonFields msg).networkId ≠ expectedNetworkId then .error .kNetworkIDMismatch
  else if (getCommonFields msg).genesisHash ≠ expectedGenesis then .error .kGenesisMismatch
  else
    match msg with
    | .v69 m => if m.latestBlock ≠ 0 ∧ m.earliestBlock > m.latestBlock then .error .kInvalidBlockRange else .ok ()
    | .v68 _ => .ok ()

def validateRemoteStatusMessage (remoteStatus : StatusMessage) (negotiatedProtocolVersion : UInt8) (expectedNetworkId : BitVec 64)
    (expectedGenesisHash : Hash256) : Except StatusValidationError Unit :=
  if (getCommonFields remoteStatus).protocolVersion ≠ negotiatedProtocolVersion then .error .kProtocolVersionMismatch
  else validateStatus remoteStatus expectedNetworkId expectedGenesisHash

-- What the handshake asks its channel for; post_message needs an active session.
structure EthSessionChannel where
  negotiatedEthVersion : UInt8
  negotiatedEthOffset : UInt8
  active : Bool

structure EthStatusHandshakeStart where
  channel : Option EthSessionChannel
  networkId : BitVec 64
  genesisHash : Hash256
  forkId : ForkId
  ethMessageSchemas : StdVector EthMessageSchema

-- How the handshake ended, with the reason its remote_disconnect_handler was told.
structure HandshakeEnd where
  result : Except StatusValidationError StatusMessage
  told : Option UInt8

def HandshakeEnd.failed (error : StatusValidationError) : HandshakeEnd := ⟨.error error,none⟩

section handshake
variable (start : EthStatusHandshakeStart) (channel : EthSessionChannel)

def decodeRemoteStatus (payload : ByteView) : Except DecodingError StatusMessage :=
  if start.ethMessageSchemas.items.isEmpty then decodeStatus payload else decodeStatusWith start.ethMessageSchemas payload

def judgeStatus (payload : ByteView) : HandshakeEnd :=
  match decodeRemoteStatus start payload with
  | .error _ => .failed .kProtocolVersionMismatch
  | .ok status =>
    match validateRemoteStatusMessage status channel.negotiatedEthVersion start.networkId start.genesisHash with
    | .error error => .failed error
    | .ok () => ⟨.ok status,none⟩

-- One round of the receive loop. A receive that failed or timed out has no
-- message; none as the answer is `continue`.
def onInbound : Option ProtocolMessage → Option HandshakeEnd
  | none => some (.failed .kProtocolVersionMismatch)
  | some msg =>
    if msg.id = kDisconnectMessageId then
      some ⟨.error .kProtocolVersionMismatch,some (decodeDisconnect (.ofVector msg.payload))⟩
    else
      match normalizeEthWireMessageId msg.id channel.negotiatedEthOffset with
      | none => none
      | some ethId =>
        -- status_received is still false here: a Status that is accepted returns.
        if ethId ≠ kStatusMessageId then some (.failed .kProtocolVersionMismatch)
        else some (judgeStatus start channel (.ofVector msg.payload))

-- for (;;), over what the receives return; none while it is still waiting.
def awaitStatus : List (Option ProtocolMessage) → Option HandshakeEnd
  | [] => none
  | received :: rest =>
    match onInbound start channel received with
    | some ended => some ended
    | none => awaitStatus rest

end handshake

structure Handshake where
  posted : Option ProtocolMessage
  ended : Option HandshakeEnd

def performEthStatusHandshake (start : EthStatusHandshakeStart) (inbound : List (Option ProtocolMessage)) : Handshake :=
  match start.channel with
  | none => ⟨none,some (.failed .kProtocolVersionMismatch)⟩
  | some channel =>
    if channel.negotiatedEthVersion = 0 ∨ channel.negotiatedEthOffset = 0 then ⟨none,some (.failed .kProtocolVersionMismatch)⟩
    else
      let status := buildLocalStatusMessage channel.negotiatedEthVersion start.networkId start.genesisHash start.forkId
      match encoded : encodeStatus status with
      | .error _ => ⟨none,some (.failed .kProtocolVersionMismatch)⟩
      | .ok bytes =>
        if channel.active then
          ⟨some ⟨channel.negotiatedEthOffset + kStatusMessageId,⟨bytes,encodeStatus_fits encoded⟩⟩,awaitStatus start channel inbound⟩
        else ⟨none,some (.failed .kProtocolVersionMismatch)⟩

def Handshake.result (handshake : Handshake) : Option (Except StatusValidationError StatusMessage) := handshake.ended.map (·.result)

section acceptance

def validBlockRange : StatusMessage → Prop
  | .v68 _ => True
  | .v69 m => m.latestBlock = 0 ∨ m.earliestBlock ≤ m.latestBlock

def Expected (start : EthStatusHandshakeStart) (channel : EthSessionChannel) (status : StatusMessage) : Prop :=
  (getCommonFields status).protocolVersion = channel.negotiatedEthVersion ∧
    (getCommonFields status).networkId = start.networkId ∧ (getCommonFields status).genesisHash = start.genesisHash ∧
      validBlockRange status

theorem validateStatus_ok : validateStatus status network genesis = .ok () ↔
    (getCommonFields status).networkId = network ∧ (getCommonFields status).genesisHash = genesis ∧ validBlockRange status := by
  unfold validateStatus
  split_ifs with network_ genesis_
  · simp [network_]
  · simp [genesis_]
  · rw [not_not] at network_ genesis_
    cases status with
    | v68 m => simp [network_,genesis_,validBlockRange]
    | v69 m =>
      dsimp only
      split_ifs with wrong
      · have outside : ¬ (m.latestBlock = 0 ∨ m.earliestBlock ≤ m.latestBlock) := by
          rw [not_or,BitVec.not_le]
          exact wrong
        simp only [validBlockRange,outside,and_false]
      · simp only [network_,genesis_,validBlockRange,true_and,true_iff]
        rwa [not_and_or,not_not,gt_iff_lt,BitVec.not_lt] at wrong

theorem validateRemoteStatusMessage_ok :
    validateRemoteStatusMessage status channel.negotiatedEthVersion start.networkId start.genesisHash = .ok () ↔
      Expected start channel status := by
  unfold validateRemoteStatusMessage Expected
  split_ifs with other
  · simp [other]
  · rw [not_not] at other
    simp [validateStatus_ok,other]

theorem judgeStatus_ok : (judgeStatus start channel payload).result = .ok status ↔
    decodeRemoteStatus start payload = .ok status ∧ Expected start channel status := by
  unfold judgeStatus
  cases decodeRemoteStatus start payload with
  | error error => simp [HandshakeEnd.failed]
  | ok found =>
    dsimp only
    rw [Except.ok.injEq]
    constructor
    · intro accepted
      split at accepted
      · cases accepted
      · rename_i valid
        cases accepted
        exact ⟨rfl,validateRemoteStatusMessage_ok.mp valid⟩
    · rintro ⟨rfl,expected⟩
      rw [validateRemoteStatusMessage_ok.mpr expected]

def skipped (channel : EthSessionChannel) : Option ProtocolMessage → Bool
  | none => false
  | some msg => decide (msg.id < channel.negotiatedEthOffset) && decide (msg.id ≠ kDisconnectMessageId)

theorem normalize_none : normalizeEthWireMessageId wire offset = none ↔ wire < offset := by
  unfold normalizeEthWireMessageId
  split <;> simp_all

theorem normalize_status : normalizeEthWireMessageId wire offset = some kStatusMessageId ↔ wire = offset := by
  unfold normalizeEthWireMessageId
  split_ifs with below
  · simp only [false_iff]
    rintro rfl
    exact absurd below (UInt8.lt_irrefl wire)
  · rw [Option.some_inj]
    constructor
    · intro zero
      rw [← UInt8.sub_add_cancel wire offset,zero,UInt8.zero_add]
    · rintro rfl
      exact UInt8.sub_self wire

theorem onInbound_skips (start : EthStatusHandshakeStart) (channel : EthSessionChannel) (received : Option ProtocolMessage) :
    onInbound start channel received = none ↔ skipped channel received = true := by
  cases received with
  | none => simp [onInbound,skipped]
  | some msg =>
    unfold onInbound skipped
    dsimp only
    by_cases disconnect : msg.id = kDisconnectMessageId
    · simp [disconnect]
    rw [if_neg disconnect]
    cases known : normalizeEthWireMessageId msg.id channel.negotiatedEthOffset with
    | none => simp [normalize_none.mp known,disconnect]
    | some ethId =>
      have above : ¬ msg.id < channel.negotiatedEthOffset := fun below => by simp [normalize_none.mpr below] at known
      dsimp only
      split <;> simp [above]

def Accepted (start : EthStatusHandshakeStart) (channel : EthSessionChannel) (msg : ProtocolMessage) (status : StatusMessage) : Prop :=
  msg.id = channel.negotiatedEthOffset ∧ msg.id ≠ kDisconnectMessageId ∧
    decodeRemoteStatus start (.ofVector msg.payload) = .ok status ∧ Expected start channel status

theorem onInbound_accepts : (onInbound start channel (some msg)).map (·.result) = some (.ok status) ↔ Accepted start channel msg status := by
  unfold onInbound Accepted
  dsimp only
  by_cases disconnect : msg.id = kDisconnectMessageId
  · simp [disconnect]
  rw [if_neg disconnect]
  cases known : normalizeEthWireMessageId msg.id channel.negotiatedEthOffset with
  | none =>
    have other : msg.id ≠ channel.negotiatedEthOffset := fun same => by simp [normalize_status.mpr same] at known
    simp [other]
  | some ethId =>
    dsimp only
    by_cases zero : ethId = kStatusMessageId
    · have same := normalize_status.mp (known.trans (congrArg some zero))
      rw [if_neg (not_not_intro zero),Option.map_some,Option.some_inj,judgeStatus_ok]
      exact ⟨fun accepted => ⟨same,disconnect,accepted⟩,fun accepted => accepted.2.2⟩
    · have other : msg.id ≠ channel.negotiatedEthOffset := by
        intro same
        cases (normalize_status.mpr same).symm.trans known
        exact zero rfl
      simp [zero,other,HandshakeEnd.failed]

theorem awaitStatus_first (inbound : List (Option ProtocolMessage)) : awaitStatus start channel inbound =
    (inbound.find? fun received => !skipped channel received).bind (onInbound start channel) := by
  induction inbound with
  | nil => rfl
  | cons received rest ih =>
    rw [awaitStatus,List.find?_cons]
    cases ended : onInbound start channel received with
    | none => rw [(onInbound_skips start channel received).mp ended,ih]; rfl
    | some found =>
      have kept : skipped channel received = false := by
        rw [← Bool.not_eq_true,← onInbound_skips start channel received,ended]
        simp
      simp [kept,ended]

theorem performEthStatusHandshake_ok : (performEthStatusHandshake start inbound).result = some (.ok status) ↔
    ∃ channel,start.channel = some channel ∧ channel.negotiatedEthVersion ≠ 0 ∧ channel.negotiatedEthOffset ≠ 0 ∧
      channel.active = true ∧ (awaitStatus start channel inbound).map (·.result) = some (.ok status) := by
  unfold performEthStatusHandshake Handshake.result
  cases start.channel with
  | none => simp [HandshakeEnd.failed]
  | some channel =>
    dsimp only
    by_cases unknown : channel.negotiatedEthVersion = 0 ∨ channel.negotiatedEthOffset = 0
    · rw [if_pos unknown]
      simp only [Option.some.injEq,exists_eq_left']
      simp [HandshakeEnd.failed]
      tauto
    · rw [if_neg unknown]
      rw [not_or] at unknown
      split
      · rename_i encoded
        rw [encodeStatus_wire (statusWire_fits _)] at encoded
        cases encoded
      · cases active : channel.active <;> simp [unknown,active,HandshakeEnd.failed]

theorem status_handshake_accepts_iff (start : EthStatusHandshakeStart) (inbound : List (Option ProtocolMessage))
    (status : StatusMessage) : (performEthStatusHandshake start inbound).result = some (.ok status) ↔
      ∃ channel,start.channel = some channel ∧
        (channel.negotiatedEthVersion ≠ 0 ∧ channel.negotiatedEthOffset ≠ 0 ∧ channel.active = true) ∧
        ∃ msg,(inbound.find? fun received => !skipped channel received) = some (some msg) ∧ Accepted start channel msg status := by
  rw [performEthStatusHandshake_ok]
  simp only [awaitStatus_first,and_assoc]
  refine exists_congr fun channel => and_congr_right fun _ => and_congr_right fun _ => and_congr_right fun _ =>
    and_congr_right fun _ => ?_
  cases inbound.find? fun received => !skipped channel received with
  | none => simp
  | some received =>
    cases received with
    | none => simp [onInbound,HandshakeEnd.failed]
    | some msg =>
      rw [Option.bind_some,onInbound_accepts]
      simp

-- An eth offset that wrapped to 0: the Status is there, but no message is read.
def zeroOffsetChannel : EthSessionChannel := ⟨69,0,true⟩

def zeroOffsetStart : EthStatusHandshakeStart := ⟨some zeroOffsetChannel,1,.zeros 32,genesisFork,.empty⟩

def emptyRange : StatusMessage69 := ⟨69,1,.zeros 32,genesisFork,0,0,.zeros 32⟩

def zeroOffsetMessage : ProtocolMessage := ⟨0,statusPayload (.v69 emptyRange)⟩

theorem zero_offset_status_refused :
    ([some zeroOffsetMessage].find? fun received => !skipped zeroOffsetChannel received) = some (some zeroOffsetMessage) ∧
      Accepted zeroOffsetStart zeroOffsetChannel zeroOffsetMessage (.v69 emptyRange) ∧
      (performEthStatusHandshake zeroOffsetStart [some zeroOffsetMessage]).result = some (.error .kProtocolVersionMismatch) := by
  have read : decodeStatus (.ofVector zeroOffsetMessage.payload) = .ok (.v69 emptyRange) := decodeStatus_range rfl rfl
  exact ⟨rfl,⟨rfl,by decide,read,rfl,rfl,rfl,Or.inl rfl⟩,rfl⟩

end acceptance

end EvmRelay.Eth
