import MsgpackRpc.Lib.Machine
import MsgpackRpc.Lib.Update
import MsgpackRpc.Lib.Dict
import MsgpackRpc.Lib.Reader
import MsgpackRpc.Lib.Msgpack
import MsgpackRpc.Messages.ParsedMessage
import MsgpackRpc.Messages.MessageSerializer
import MsgpackRpc.Messages.Unpacker
import MsgpackRpc.Methods.FunctionalMethod
import MsgpackRpc.Methods.MethodProcessor
import MsgpackRpc.Transport.ConnectionClosing
import MsgpackRpc.Transport.ConnectionSocket
import MsgpackRpc.Transport.AsyncConnect
import MsgpackRpc.Clients.MessageDelivery
import MsgpackRpc.Clients.MessageOrder
import MsgpackRpc.Clients.SenderProgress
import MsgpackRpc.Clients.ClientConnector
import MsgpackRpc.Clients.Call
import MsgpackRpc.Clients.CallList
import MsgpackRpc.Clients.CallRegistry
import MsgpackRpc.Clients.CallCompletion
import MsgpackRpc.Clients.CallReference
import MsgpackRpc.Clients.CallFuture
import MsgpackRpc.Transport.MessageStream
import MsgpackRpc.Transport.Acceptor
import MsgpackRpc.Transport.AcceptorListening
import MsgpackRpc.Transport.AcceptorClosing
import MsgpackRpc.Servers.ResponseOrder
import MsgpackRpc.Servers.ProtocolViolation
import MsgpackRpc.Clients.ConnectorStop
import MsgpackRpc.Transport.ConnectionList
import MsgpackRpc.Messages.MessageGrammar
import MsgpackRpc.Executors.GeneralExecutor
import MsgpackRpc.Executors.ContextSelection
import MsgpackRpc.Servers.ServerImpl
import MsgpackRpc.Servers.ServerLifecycle
import MsgpackRpc.Executors.ExecutorThreads
import MsgpackRpc.Servers.ExceptionInServer
import MsgpackRpc.Lib.Acquire
import MsgpackRpc.Servers.ServerBuilder
import MsgpackRpc.Clients.ReconnectionTimer
import MsgpackRpc.Clients.CallDeadline
import MsgpackRpc.Addresses.URI
import MsgpackRpc.Addresses.Address
import MsgpackRpc.Config.Configs
import MsgpackRpc.Config.Toml
import MsgpackRpc.Config.ConfigParser
import MsgpackRpc.Lib.RefCount
import MsgpackRpc.Messages.SharableBinary
import MsgpackRpc.Messages.SerializedMessage
import MsgpackRpc.Messages.SerializationBuffer
import MsgpackRpc.Lib.CircularScan
import MsgpackRpc.Util.SharedObjects
import MsgpackRpc.Lib.OutputIterator
import MsgpackRpc.Util.FormatMsgpackObject
import MsgpackRpc.Clients.MessageSource
import MsgpackRpc.Lib.ByteStream
import MsgpackRpc.Messages.Codec
import MsgpackRpc.Servers.ResponseSource
import MsgpackRpc.Rpc.Session
import MsgpackRpc.Clients.CallOrigin
import MsgpackRpc.Rpc.Provenance
import MsgpackRpc.Rpc.OwnAnswers
import MsgpackRpc.Clients.SingleConnection
import MsgpackRpc.Rpc.AtMostOnce
import MsgpackRpc.Transport.LiveConnection
import MsgpackRpc.Clients.LiveClient
import MsgpackRpc.Servers.LiveServer
import MsgpackRpc.Rpc.Completeness
import MsgpackRpc.Lib.Progress
import MsgpackRpc.Rpc.Progress
