import MsgpackRpc.Config.Configs

/-!
# Configurations in TOML

The functions `parse_toml` for a single configuration.  They go through the keys of a table in its
order, skip the keys that they do not know and throw at the first value that they do not accept; the
exceptions name the key and the place in the file.

The scalars of TOML and their conversions are parameters.
-/

namespace MsgpackRpc.Config

open Addresses (URI)
open Clients (ReconnectionConfig)
open Executors (ExecutorConfig)
open Methods (StandardException)

namespace Toml

/-- The path, when it is known, and the line where a node begins. -/
structure SourceRegion where
  path : Option (List UInt8) := none
  line : Nat := 0
  deriving DecidableEq, Repr

inductive Node (V : Type) where
  | table (source : SourceRegion) (entries : List (List UInt8 × Node V))
  | array (source : SourceRegion) (elements : List (Node V))
  | scalar (source : SourceRegion) (v : V)

/-- The entries of a table, in the order of the keys. -/
abbrev Table (V : Type) := List (List UInt8 × Node V)

variable {V : Type}

namespace Node

def source : Node V → SourceRegion
  | .table source _ | .array source _ | .scalar source _ => source

def asTable : Node V → Option (Table V)
  | .table _ entries => some entries
  | _ => none

def asArray : Node V → Option (List (Node V))
  | .array _ elements => some elements
  | _ => none

/-- `as_string` and `value<T>`: a conversion of scalars, which other nodes do not have. -/
def value {α : Type} (convert : V → Option α) : Node V → Option α
  | .scalar _ v => convert v
  | _ => none

end Node

/-- The conversions of scalars.  `value<double>` stands with the `duration_cast` to nanoseconds that
always follows. -/
structure TomlLibrary (V : Type) where
  asString : V → Option (List UInt8)
  valueString : V → Option (List UInt8)
  valueSize : V → Option UInt64
  valueDuration : V → Option Int64

/-! ## Exceptions -/

def location (source : SourceRegion) : List UInt8 :=
  text " (at " ++ source.path.getD (text "(unknown file)") ++ text ":" ++
    URI.decimalText source.line ++ text ")"

/-- `throw_error` with two arguments. -/
def invalidValue (source : SourceRegion) (key : List UInt8) : StandardException :=
  .msgpackRPC (.create .invalidArgument
    (text "Invalid value for " ++ key ++ text "." ++ location source))

/-- `throw_error` with an error message. -/
def invalidValueFor (source : SourceRegion) (key message : List UInt8) : StandardException :=
  .msgpackRPC (.create .invalidArgument
    (text "Invalid value for " ++ key ++ text ": " ++ message ++ location source))

/-- `try { body } catch (const std::exception& e) { throw_error(source, key, e.what()); }` -/
def rethrow {C : Type} (source : SourceRegion) (key : List UInt8) :
    Except StandardException C → Except StandardException C
  | .ok config => .ok config
  | .error e => .error (invalidValueFor source key e.what)

/-! ## Values of keys -/

section Values

variable {α C D : Type}

/-- `MSGPACK_RPC_PARSE_TOML_VALUE` and `MSGPACK_RPC_PARSE_TOML_VALUE_DURATION` -/
def parseTomlValue (key : List UInt8) (convert : V → Option α)
    (set : α → Except StandardException C) (value : Node V) : Except StandardException C :=
  match value.value convert with
  | none => .error (invalidValue value.source key)
  | some v => rethrow value.source key (set v)

/-- The same for a setter that throws a status. -/
def parseTomlStatus (key : List UInt8) (convert : V → Option α) (set : α → Except Status C) :
    Node V → Except StandardException C :=
  parseTomlValue key convert fun v => (set v).mapError .msgpackRPC

/-- One element of `uris`. -/
def parseUri (lib : TomlLibrary V) (addUri : C → List UInt8 → Except StandardException C)
    (config : C) (elem : Node V) : Except StandardException C :=
  parseTomlValue (text "uris") lib.asString (addUri config) elem

def parseUris (lib : TomlLibrary V) (addUri : C → List UInt8 → Except StandardException C)
    (config : C) (value : Node V) : Except StandardException C :=
  match value.asArray with
  | none => .error (invalidValue value.source (text "uris"))
  | some elements => elements.foldlM (parseUri lib addUri) config

/-- A key whose value is a table for a part of the configuration. -/
def parseChild (key : List UInt8) (parse : Table V → Except StandardException D) (set : D → C)
    (value : Node V) : Except StandardException C :=
  match value.asTable with
  | none => .error (invalidValue value.source key)
  | some table => (parse table).map set

/-- The loop over the keys of a table. -/
def parseKeys (parseKey : C → List UInt8 → Node V → Except StandardException C) (table : Table V)
    (config : C) : Except StandardException C :=
  table.foldlM (fun config (key, value) => parseKey config key value) config

end Values

/-! ## Configurations -/

variable (lib : TomlLibrary V) (re2 : URI.RE2)

def parseMessageParserConfig : Table V → MessageParserConfig →
    Except StandardException MessageParserConfig :=
  parseKeys fun config key value =>
    if key = text "read_buffer_size" then
      parseTomlStatus (text "read_buffer_size") lib.valueSize config.setReadBufferSize value
    else .ok config

def parseExecutorConfig : Table V → ExecutorConfig → Except StandardException ExecutorConfig :=
  parseKeys fun config key value =>
    if key = text "num_transport_threads" then
      parseTomlStatus (text "num_transport_threads") lib.valueSize
        (fun v => config.setNumTransportThreads v.toNat) value
    else if key = text "num_callback_threads" then
      parseTomlStatus (text "num_callback_threads") lib.valueSize
        (fun v => config.setNumCallbackThreads v.toNat) value
    else .ok config

def parseReconnectionConfig : Table V → ReconnectionConfig →
    Except StandardException ReconnectionConfig :=
  parseKeys fun config key value =>
    if key = text "initial_waiting_time_sec" then
      parseTomlStatus (text "initial_waiting_time_sec") lib.valueDuration
        config.setInitialWaitingTime value
    else if key = text "max_waiting_time_sec" then
      parseTomlStatus (text "max_waiting_time_sec") lib.valueDuration
        config.setMaxWaitingTime value
    else if key = text "max_jitter_waiting_time_sec" then
      parseTomlStatus (text "max_jitter_waiting_time_sec") lib.valueDuration
        config.setMaxJitterWaitingTime value
    else .ok config

def parseClientConfig : Table V → ClientConfig → Except StandardException ClientConfig :=
  parseKeys fun config key value =>
    if key = text "uris" then
      parseUris lib (ClientConfig.addUri re2) config value
    else if key = text "call_timeout_sec" then
      parseTomlStatus (text "call_timeout_sec") lib.valueDuration config.setCallTimeout value
    else if key = text "message_parser" then
      parseChild (text "message_parser") (parseMessageParserConfig lib · config.messageParser)
        (fun child => { config with messageParser := child }) value
    else if key = text "executor" then
      parseChild (text "executor") (parseExecutorConfig lib · config.executor)
        (fun child => { config with executor := child }) value
    else if key = text "reconnection" then
      parseChild (text "reconnection") (parseReconnectionConfig lib · config.reconnection)
        (fun child => { config with reconnection := child }) value
    else .ok config

def parseServerConfig : Table V → ServerConfig → Except StandardException ServerConfig :=
  parseKeys fun config key value =>
    if key = text "uris" then
      parseUris lib (ServerConfig.addUri re2) config value
    else if key = text "message_parser" then
      parseChild (text "message_parser") (parseMessageParserConfig lib · config.messageParser)
        (fun child => { config with messageParser := child }) value
    else if key = text "executor" then
      parseChild (text "executor") (parseExecutorConfig lib · config.executor)
        (fun child => { config with executor := child }) value
    else .ok config

def parseLogLevel (str : List UInt8) (source : SourceRegion) (key : List UInt8) :
    Except StandardException LogLevel :=
  if str = text "trace" then .ok .trace
  else if str = text "debug" then .ok .debug
  else if str = text "info" then .ok .info
  else if str = text "warn" then .ok .warn
  else if str = text "error" then .ok .error
  else if str = text "critical" then .ok .critical
  else .error (invalidValue source key)

/-- The branch for `output_log_level`, which is not in a try block. -/
def parseOutputLogLevel (config : LoggingConfig) (value : Node V) :
    Except StandardException LoggingConfig :=
  match value.value lib.valueString with
  | none => .error (invalidValue value.source (text "output_log_level"))
  | some str =>
      (parseLogLevel str value.source (text "output_log_level")).map config.setOutputLogLevel

def parseLoggingConfig : Table V → LoggingConfig → Except StandardException LoggingConfig :=
  parseKeys fun config key value =>
    if key = text "file_path" then
      parseTomlValue (text "file_path") lib.valueString (fun v => .ok (config.setFilePath v)) value
    else if key = text "max_file_size" then
      parseTomlStatus (text "max_file_size") lib.valueSize config.setMaxFileSize value
    else if key = text "max_files" then
      parseTomlStatus (text "max_files") lib.valueSize config.setMaxFiles value
    else if key = text "output_log_level" then
      parseOutputLogLevel lib config value
    else .ok config

/-! ## What the exceptions say -/

/-- An exception of `throw_error`. -/
def NamesKey (e : StandardException) : Prop :=
  ∃ source key, e = invalidValue source key ∨ ∃ message, e = invalidValueFor source key message

theorem namesKey_invalidValue (source : SourceRegion) (key : List UInt8) :
    NamesKey (invalidValue source key) :=
  ⟨source, key, .inl rfl⟩

theorem namesKey_invalidValueFor (source : SourceRegion) (key message : List UInt8) :
    NamesKey (invalidValueFor source key message) :=
  ⟨source, key, .inr ⟨message, rfl⟩⟩

section Errors

variable {α C D : Type} {e : StandardException}

/-- A loop throws what one of its rounds throws. -/
theorem error_of_foldlM {β : Type} {f : C → β → Except StandardException C}
    (hf : ∀ c b, f c b = .error e → NamesKey e) {l : List β} {c : C}
    (h : l.foldlM f c = .error e) : NamesKey e := by
  induction l generalizing c with
  | nil => cases h
  | cons b l ih =>
    rw [List.foldlM_cons] at h
    cases hround : f c b with
    | error e' =>
      rw [hround] at h
      cases h
      exact hf c b hround
    | ok c' =>
      rw [hround] at h
      exact ih h

theorem error_of_parseTomlValue {key : List UInt8} {convert : V → Option α}
    {set : α → Except StandardException C} {value : Node V}
    (h : parseTomlValue key convert set value = .error e) : NamesKey e := by
  unfold parseTomlValue at h
  split at h
  · cases h
    exact namesKey_invalidValue _ _
  · rename_i v hv
    cases hset : set v with
    | ok c =>
      rw [hset] at h
      cases h
    | error e' =>
      rw [hset] at h
      cases h
      exact namesKey_invalidValueFor _ _ _

theorem error_of_parseTomlStatus {key : List UInt8} {convert : V → Option α}
    {set : α → Except Status C} {value : Node V}
    (h : parseTomlStatus key convert set value = .error e) : NamesKey e :=
  error_of_parseTomlValue h

theorem error_of_parseUris {addUri : C → List UInt8 → Except StandardException C} {config : C}
    {value : Node V} (h : parseUris lib addUri config value = .error e) : NamesKey e := by
  unfold parseUris at h
  split at h
  · cases h
    exact namesKey_invalidValue _ _
  · exact error_of_foldlM (fun _ _ helem => error_of_parseTomlValue helem) h

theorem error_of_parseChild {key : List UInt8} {parse : Table V → Except StandardException D}
    (hparse : ∀ table, parse table = .error e → NamesKey e) {set : D → C} {value : Node V}
    (h : parseChild key parse set value = .error e) : NamesKey e := by
  unfold parseChild at h
  split at h
  · cases h
    exact namesKey_invalidValue _ _
  · rename_i table htable
    cases hchild : parse table with
    | ok d =>
      rw [hchild] at h
      cases h
    | error e' =>
      rw [hchild] at h
      cases h
      exact hparse table hchild

theorem error_of_parseMessageParserConfig {table : Table V} {config : MessageParserConfig}
    (h : parseMessageParserConfig lib table config = .error e) : NamesKey e := by
  refine error_of_foldlM (fun config entry hkey => ?_) h
  dsimp only at hkey
  split at hkey
  · exact error_of_parseTomlStatus hkey
  · cases hkey

theorem error_of_parseExecutorConfig {table : Table V} {config : ExecutorConfig}
    (h : parseExecutorConfig lib table config = .error e) : NamesKey e := by
  refine error_of_foldlM (fun config entry hkey => ?_) h
  dsimp only at hkey
  split at hkey
  · exact error_of_parseTomlStatus hkey
  split at hkey
  · exact error_of_parseTomlStatus hkey
  · cases hkey

theorem error_of_parseReconnectionConfig {table : Table V} {config : ReconnectionConfig}
    (h : parseReconnectionConfig lib table config = .error e) : NamesKey e := by
  refine error_of_foldlM (fun config entry hkey => ?_) h
  dsimp only at hkey
  split at hkey
  · exact error_of_parseTomlStatus hkey
  split at hkey
  · exact error_of_parseTomlStatus hkey
  split at hkey
  · exact error_of_parseTomlStatus hkey
  · cases hkey

theorem error_of_parseClientConfig {table : Table V} {config : ClientConfig}
    (h : parseClientConfig lib re2 table config = .error e) : NamesKey e := by
  refine error_of_foldlM (fun config entry hkey => ?_) h
  dsimp only at hkey
  split at hkey
  · exact error_of_parseUris lib hkey
  split at hkey
  · exact error_of_parseTomlStatus hkey
  split at hkey
  · exact error_of_parseChild (fun _ => error_of_parseMessageParserConfig lib) hkey
  split at hkey
  · exact error_of_parseChild (fun _ => error_of_parseExecutorConfig lib) hkey
  split at hkey
  · exact error_of_parseChild (fun _ => error_of_parseReconnectionConfig lib) hkey
  · cases hkey

theorem error_of_parseServerConfig {table : Table V} {config : ServerConfig}
    (h : parseServerConfig lib re2 table config = .error e) : NamesKey e := by
  refine error_of_foldlM (fun config entry hkey => ?_) h
  dsimp only at hkey
  split at hkey
  · exact error_of_parseUris lib hkey
  split at hkey
  · exact error_of_parseChild (fun _ => error_of_parseMessageParserConfig lib) hkey
  split at hkey
  · exact error_of_parseChild (fun _ => error_of_parseExecutorConfig lib) hkey
  · cases hkey

theorem error_of_parseOutputLogLevel {config : LoggingConfig} {value : Node V}
    (h : parseOutputLogLevel lib config value = .error e) : NamesKey e := by
  unfold parseOutputLogLevel at h
  split at h
  · cases h
    exact namesKey_invalidValue _ _
  · rename_i str hstr
    unfold parseLogLevel at h
    repeat' split at h
    all_goals cases h
    exact namesKey_invalidValue _ _

theorem error_of_parseLoggingConfig {table : Table V} {config : LoggingConfig}
    (h : parseLoggingConfig lib table config = .error e) : NamesKey e := by
  refine error_of_foldlM (fun config entry hkey => ?_) h
  dsimp only at hkey
  split at hkey
  · exact error_of_parseTomlValue hkey
  split at hkey
  · exact error_of_parseTomlStatus hkey
  split at hkey
  · exact error_of_parseTomlStatus hkey
  split at hkey
  · exact error_of_parseOutputLogLevel lib hkey
  · cases hkey

end Errors

end Toml

end MsgpackRpc.Config
