import MsgpackRpc.Addresses.URI
import MsgpackRpc.Clients.CallDeadline
import MsgpackRpc.Clients.ReconnectionTimer
import MsgpackRpc.Executors.GeneralExecutor

/-!
# Configurations

What loggers, clients and servers are configured with.  A setter throws for a value that it does not
accept, so a configuration carries the checks of its values.
-/

namespace MsgpackRpc.Config

open Addresses (URI)
open Clients (ReconnectionConfig)
open Executors (ExecutorConfig)
open Methods (StandardException)

inductive LogLevel where
  | trace
  | debug
  | info
  | warn
  | error
  | critical
  deriving DecidableEq, Repr

structure LoggingConfig where
  filePath : List UInt8 := []
  maxFileSize : UInt64 := 1048576
  maxFiles : UInt64 := 5
  outputLogLevel : LogLevel := .info
  size_pos : 0 < maxFileSize := by decide
  files_pos : 0 < maxFiles := by decide

namespace LoggingConfig

def setFilePath (config : LoggingConfig) (value : List UInt8) : LoggingConfig :=
  { config with filePath := value }

def setMaxFileSize (config : LoggingConfig) (value : UInt64) : Except Status LoggingConfig :=
  if h : value ≤ 0 then
    .error (.create .invalidArgument (text "Maximum size of a file must be greater than 0."))
  else .ok { config with maxFileSize := value, size_pos := UInt64.not_le.mp h }

def setMaxFiles (config : LoggingConfig) (value : UInt64) : Except Status LoggingConfig :=
  if h : value ≤ 0 then
    .error (.create .invalidArgument (text "Maximum number of files must be greater than 0."))
  else .ok { config with maxFiles := value, files_pos := UInt64.not_le.mp h }

/-- Every level is one of the cases that the setter accepts. -/
def setOutputLogLevel (config : LoggingConfig) (value : LogLevel) : LoggingConfig :=
  { config with outputLogLevel := value }

/-- Every configuration is what the setters make of the default one. -/
theorem set_default (config : LoggingConfig) :
    ((setMaxFileSize {} config.maxFileSize).bind fun c =>
      (c.setMaxFiles config.maxFiles).map fun c =>
        (c.setFilePath config.filePath).setOutputLogLevel config.outputLogLevel) = .ok config := by
  rw [setMaxFileSize, dif_neg (UInt64.not_le.mpr config.size_pos), Except.bind,
    setMaxFiles, dif_neg (UInt64.not_le.mpr config.files_pos)]
  rfl

end LoggingConfig

structure MessageParserConfig where
  /-- `MSGPACK_UNPACKER_RESERVE_SIZE` -/
  readBufferSize : UInt64 := 32768
  size_pos : 0 < readBufferSize := by decide

def MessageParserConfig.setReadBufferSize (_ : MessageParserConfig) (value : UInt64) :
    Except Status MessageParserConfig :=
  if h : value ≤ 0 then
    .error (.create .invalidArgument (text "Buffer size must be at least one."))
  else .ok { readBufferSize := value, size_pos := UInt64.not_le.mp h }

theorem MessageParserConfig.set_default (config : MessageParserConfig) :
    setReadBufferSize {} config.readBufferSize = .ok config := by
  rw [setReadBufferSize, dif_neg (UInt64.not_le.mpr config.size_pos)]

structure ClientConfig extends Clients.ClientConfig where
  uris : List URI := []
  messageParser : MessageParserConfig := {}
  executor : ExecutorConfig := {}
  reconnection : ReconnectionConfig := {}

structure ServerConfig where
  uris : List URI := []
  messageParser : MessageParserConfig := {}
  executor : ExecutorConfig := {}

variable (re2 : URI.RE2)

namespace ClientConfig

def addUri (config : ClientConfig) (uri : List UInt8) : Except StandardException ClientConfig := do
  let uri ← URI.parse re2 uri
  return { config with uris := config.uris ++ [uri] }

def setCallTimeout (config : ClientConfig) (value : Int64) : Except Status ClientConfig := do
  let timeout ← config.toClientConfig.setCallTimeout value
  return { config with toClientConfig := timeout }

end ClientConfig

def ServerConfig.addUri (config : ServerConfig) (uri : List UInt8) :
    Except StandardException ServerConfig := do
  let uri ← URI.parse re2 uri
  return { config with uris := config.uris ++ [uri] }

end MsgpackRpc.Config
