import EvmRelay.EnrProvenance
import EvmRelay.RpcCursor
import EvmRelay.EthRequestId
import EvmRelay.TypedReceipts
import EvmRelay.AbiEncoding
import EvmRelay.DefaultDial
import EvmRelay.MessageChannel
import EvmRelay.HandshakeAgreement
import EvmRelay.SessionBridge
import EvmRelay.Discv5Solicited
import EvmRelay.ChainPeerSignature
import EvmRelay.DecoderCalls
import EvmRelay.RequestIds
import EvmRelay.RpcSelection
import EvmRelay.RedialSpacing
import EvmRelay.PeerBounds
import EvmRelay.DialFeedback
import EvmRelay.PreloadOrder
import EvmRelay.HelloMessage
import EvmRelay.Discv5Buffers
import EvmRelay.SessionStates
import EvmRelay.EnrTree
import EvmRelay.BridgeSubscriptions
import EvmRelay.LargeStrings
import EvmRelay.ChunkedCalls
import EvmRelay.Discv4Neighbours
import EvmRelay.ForkIds
import EvmRelay.PendingRequests
