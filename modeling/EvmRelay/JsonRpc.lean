import EvmRelay.EventWatcher
import EvmRelay.JsonUtility

namespace EvmRelay
namespace Rpc

open ParseUtility JsonUtility

inductive RpcBlockTag where
  | latest
  | safe
  | finalized
  deriving DecidableEq

structure RpcLog where
  log : LogEntry
  blockNumber : BitVec 64
  blockHash : Hash256
  txHash : Hash256
  logIndex : BitVec 32

def blockTagName : RpcBlockTag → Text
  | .latest => ascii "latest"
  | .safe => ascii "safe"
  | .finalized => ascii "finalized"

def makeJsonRpcRequest (method : Text) (params : List Json) (id : BitVec 64) : Json :=
  .object [(ascii "jsonrpc",.string (ascii "2.0")),(ascii "method",.string method),
    (ascii "params",.array params),(ascii "id",.uint64 id)]

def makeGetBlockByNumberRequest (tag : RpcBlockTag) (id : BitVec 64) : Json :=
  makeJsonRpcRequest (ascii "eth_getBlockByNumber") [.string (blockTagName tag),.bool false] id

def addressMember : List Address → List (Text × Json)
  | [] => []
  | [address] => [(ascii "address",.string (hexArrayString address))]
  | addresses => [(ascii "address",.array (addresses.map fun address => .string (hexArrayString address)))]

def topicsMember : List (Option Hash256) → List (Text × Json)
  | [] => []
  | topics => [(ascii "topics",.array (topics.map fun topic =>
      match topic with
      | none => .null
      | some topic => .string (hexArrayString topic)))]

def makeGetLogsRequest (filter : EventFilter) (fromBlock toBlock id : BitVec 64) : Json :=
  let filterJson : List (Text × Json) :=
    [(ascii "fromBlock",.string (uint64HexQuantity fromBlock)),(ascii "toBlock",.string (uint64HexQuantity toBlock))] ++
      addressMember filter.addresses ++ topicsMember filter.topics
  makeJsonRpcRequest (ascii "eth_getLogs") [.object filterJson] id

def makeGetTransactionReceiptRequest (txHash : Hash256) (id : BitVec 64) : Json :=
  makeJsonRpcRequest (ascii "eth_getTransactionReceipt") [.string (hexArrayString txHash)] id

def requiredField (name : String) (type : JsonSchema) (rest : JsonSchemaFields) : JsonSchemaFields :=
  .cons (ascii name) true none type rest

def blockResultSchema : JsonSchemaFields := requiredField "number" .string .nil

def logTopicsSchema : JsonSchema := .array .string

def rpcLogSchema : JsonSchemaFields :=
  requiredField "address" .string (requiredField "topics" logTopicsSchema (requiredField "data" .string
    (requiredField "blockNumber" .string (requiredField "blockHash" .string
      (requiredField "transactionHash" .string (requiredField "logIndex" .string .nil))))))

def logsSchema : JsonSchema := .array (.object rpcLogSchema)

def logsResponseSchema : JsonSchemaFields := requiredField "result" logsSchema .nil

def blockResponseSchema : JsonSchemaFields := requiredField "result" (.object blockResultSchema) .nil

def receiptResultSchema : JsonSchemaFields :=
  requiredField "status" .string (requiredField "blockNumber" .string (requiredField "blockHash" .string
    (requiredField "transactionHash" .string (requiredField "logs" logsSchema .nil))))

def receiptResponseSchema : JsonSchemaFields := requiredField "result" (.object receiptResultSchema) .nil

def collect (items : List α) : Option (StdVector α) :=
  if fits : items.length < sizeLimit then some ⟨items,fits⟩ else none

def parseRpcLog (object : JsonParsedObject) : Option RpcLog := do
  let addressValue ← (getParsedString object (ascii "address")).toOption
  let topicsValue ← (getParsedArray object (ascii "topics")).toOption
  let dataValue ← (getParsedString object (ascii "data")).toOption
  let blockNumberValue ← (getParsedString object (ascii "blockNumber")).toOption
  let blockHashValue ← (getParsedString object (ascii "blockHash")).toOption
  let txHashValue ← (getParsedString object (ascii "transactionHash")).toOption
  let logIndexValue ← (getParsedString object (ascii "logIndex")).toOption
  let address ← hexArray 20 addressValue
  let data ← hexBytes dataValue
  let blockNumber ← uint64Hex blockNumberValue
  let blockHash ← hexArray 32 blockHashValue
  let txHash ← hexArray 32 txHashValue
  let logIndex ← uint64Hex logIndexValue
  if logIndex > 0xFFFFFFFF#64 then none
  else
    let topics ← topicsValue.mapM fun topicValue => topicValue.asString.bind (hexArray 32)
    return ⟨⟨address,← collect topics,← collect data⟩,blockNumber,blockHash,txHash,logIndex.setWidth 32⟩

def parseRpcLogs (values : List JsonParsedValue) : Option (List RpcLog) :=
  values.mapM fun value => value.asObject.bind parseRpcLog

def parseBlockNumberResponse (parse : Text → Option Json) (jsonText : Text) : Option (BitVec 64) := do
  let parsed ← (parseSchemaObject parse jsonText blockResponseSchema).toOption
  let result ← (getParsedObject parsed (ascii "result")).toOption
  let number ← (getParsedString result (ascii "number")).toOption
  uint64Hex number

def parseGetLogsResponse (parse : Text → Option Json) (jsonText : Text) : Option (List RpcLog) := do
  let parsed ← (parseSchemaObject parse jsonText logsResponseSchema).toOption
  let logs ← (getParsedArray parsed (ascii "result")).toOption
  parseRpcLogs logs

def parseTransactionReceiptResponse (parse : Text → Option Json) (jsonText : Text) : Option ReceiptResult := do
  let parsed ← (parseSchemaObject parse jsonText receiptResponseSchema).toOption
  let receiptObject ← (getParsedObject parsed (ascii "result")).toOption
  let statusValue ← (getParsedString receiptObject (ascii "status")).toOption
  let blockNumberValue ← (getParsedString receiptObject (ascii "blockNumber")).toOption
  let blockHashValue ← (getParsedString receiptObject (ascii "blockHash")).toOption
  let txHashValue ← (getParsedString receiptObject (ascii "transactionHash")).toOption
  let logs ← (getParsedArray receiptObject (ascii "logs")).toOption
  let status ← uint64Hex statusValue
  let blockNumber ← uint64Hex blockNumberValue
  let blockHash ← hexArray 32 blockHashValue
  let txHash ← hexArray 32 txHashValue
  let parsedLogs ← parseRpcLogs logs
  let entries ← collect (parsedLogs.map RpcLog.log)
  let logIndices ← collect (parsedLogs.map RpcLog.logIndex)
  return ⟨.withStatus (decide (status ≠ 0)) entries,txHash,blockNumber,blockHash,logIndices⟩

end Rpc
end EvmRelay
