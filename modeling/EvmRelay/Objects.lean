import EvmRelay.MachineWords

namespace EvmRelay

structure LogEntry where
  address : Address
  topics : StdVector Hash256
  data : StdVector UInt8
  deriving DecidableEq

abbrev Bloom := FixedBytes 256

-- eth::codec::Receipt; a status is absent in receipts that carry a state root.
structure Receipt where
  stateRoot : Option Hash256
  status : Option Bool
  cumulativeGasUsed : BitVec 256
  bloom : Bloom
  logs : StdVector LogEntry
  deriving DecidableEq

-- A receipt known by its status and its logs; the other members keep the
-- values they are initialised with.
def Receipt.withStatus (status : Bool) (logs : StdVector LogEntry) : Receipt :=
  ⟨none,some status,0,FixedBytes.zeros 256,logs⟩

inductive TransactionType where
  | kLegacy | kAccessList | kDynamicFee | kOpDeposit
  deriving DecidableEq

def TransactionType.byte : TransactionType → UInt8
  | .kLegacy => 0x00
  | .kAccessList => 0x01
  | .kDynamicFee => 0x02
  | .kOpDeposit => 0x7E

structure AccessListEntry where
  address : Address
  storageKeys : StdVector Hash256
  deriving DecidableEq

-- eth::codec::Transaction; no address to send to makes a contract.
structure Transaction where
  type : TransactionType
  nonce : BitVec 64
  gasLimit : BitVec 64
  toAddress : Option Address
  value : BitVec 256
  data : StdVector UInt8
  gasPrice : Option (BitVec 256)
  maxPriorityFeePerGas : Option (BitVec 256)
  maxFeePerGas : Option (BitVec 256)
  accessList : StdVector AccessListEntry
  chainId : Option (BitVec 64)
  v : BitVec 256
  r : BitVec 256
  s : BitVec 256
  deriving DecidableEq

-- eth::codec::BlockHeader; the base fee came with a later fork.
structure BlockHeader where
  parentHash : Hash256
  ommersHash : Hash256
  beneficiary : Address
  stateRoot : Hash256
  transactionsRoot : Hash256
  receiptsRoot : Hash256
  logsBloom : Bloom
  difficulty : BitVec 256
  number : BitVec 64
  gasLimit : BitVec 64
  gasUsed : BitVec 64
  timestamp : BitVec 64
  extraData : StdVector UInt8
  mixHash : Hash256
  nonce : FixedBytes 8
  baseFeePerGas : Option (BitVec 256)
  deriving DecidableEq

-- eth::ReceiptResult: one receipt with the place it was found at.
structure ReceiptResult where
  receipt : Receipt
  txHash : Hash256
  blockNumber : BitVec 64
  blockHash : Hash256
  logIndices : StdVector (BitVec 32)

-- eth::ReceiptBatch: the receipts of one block.
structure ReceiptBatch where
  receipts : StdVector Receipt
  txHashes : StdVector Hash256
  logIndices : StdVector (StdVector (BitVec 32))
  blockNumber : BitVec 64
  blockHash : Hash256

end EvmRelay
