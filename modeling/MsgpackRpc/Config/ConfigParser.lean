import MsgpackRpc.Lib.ApplyUntil
import MsgpackRpc.Lib.Dict
import MsgpackRpc.Config.Toml

/-!
# The parser of configuration files

`ConfigParser::parse` fills its three maps while it goes through a document, and the first value
that is not accepted ends it.  The maps have then what stands before this value.
-/

namespace MsgpackRpc.Config

open ApplyUntil
open Methods (StandardException)
open Toml

/-- Configurations of one kind, by their names. -/
abbrev Configs (C : Type) := Dict (Prod.fst : List UInt8 × C → List UInt8)

variable {V : Type}

/-! ## Tables of configurations -/

section Tables

variable {C : Type} (kind : String) (parse : Table V → Except StandardException C)

def notTableOfTables (source : SourceRegion) : StandardException :=
  invalidValueFor source (text kind) (text ("\"" ++ kind ++ "\" must be a table of tables."))

/-- What a round of the loop over a table of configurations gives to `try_emplace`. -/
def parseConfig (entry : List UInt8 × Node V) : Except StandardException (List UInt8 × C) :=
  match entry.2.asTable with
  | none => .error (notTableOfTables kind entry.2.source)
  | some table => (parse table).map fun config => (entry.1, config)

def parseConfigs (table : Table V) (configs : Configs C) :
    Except StandardException Unit × Configs C :=
  applyUntil (parseConfig kind parse) Dict.emplace table configs

/-- One of the three parts of `parse_toml` for the root table. -/
def parseSection (root : Table V) (configs : Configs C) :
    Except StandardException Unit × Configs C :=
  match root.lookup (text kind) with
  | none => (.ok (), configs)
  | some node =>
      match node.asTable with
      | none => (.error (notTableOfTables kind node.source), configs)
      | some table => parseConfigs kind parse table configs

end Tables

structure ConfigParser where
  loggingConfigs : Configs LoggingConfig := {}
  clientConfigs : Configs ClientConfig := {}
  serverConfigs : Configs ServerConfig := {}

/-- `toml::parse_error` -/
structure ParseError where
  description : List UInt8
  line : Nat

namespace ConfigParser

variable (lib : TomlLibrary V) (re2 : Addresses.URI.RE2)

def parseLogging : Table V → Configs LoggingConfig →
    Except StandardException Unit × Configs LoggingConfig :=
  parseSection "logging" (parseLoggingConfig lib · {})

def parseClient : Table V → Configs ClientConfig →
    Except StandardException Unit × Configs ClientConfig :=
  parseSection "client" (parseClientConfig lib re2 · {})

def parseServer : Table V → Configs ServerConfig →
    Except StandardException Unit × Configs ServerConfig :=
  parseSection "server" (parseServerConfig lib re2 · {})

/-- `parse_toml` for the root table. -/
def parseRoot (root : Table V) (p : ConfigParser) :
    Except StandardException Unit × ConfigParser :=
  match parseLogging lib root p.loggingConfigs with
  | (.error e, configs) => (.error e, { p with loggingConfigs := configs })
  | (.ok (), configs) =>
      let p := { p with loggingConfigs := configs }
      match parseClient lib re2 root p.clientConfigs with
      | (.error e, configs) => (.error e, { p with clientConfigs := configs })
      | (.ok (), configs) =>
          let p := { p with clientConfigs := configs }
          match parseServer lib re2 root p.serverConfigs with
          | (.error e, configs) => (.error e, { p with serverConfigs := configs })
          | (.ok (), configs) => (.ok (), { p with serverConfigs := configs })

/-- The prefix of the messages of `parse`. -/
def failedToParse (filePath message : List UInt8) : StandardException :=
  .msgpackRPC (.create .invalidArgument
    (text "Failed to parse " ++ filePath ++ text ": " ++ message))

/-- `file` is what `toml::parse_file` answers for the path. -/
def parse (filePath : List UInt8) (file : Except ParseError (Table V)) (p : ConfigParser) :
    Except StandardException Unit × ConfigParser :=
  match file with
  | .error e =>
      (.error (failedToParse filePath
        (e.description ++ location { path := some filePath, line := e.line })), p)
  | .ok root =>
      match parseRoot lib re2 root p with
      | (.error (.msgpackRPC status), p) => (.error (failedToParse filePath status.message), p)
      | result => result

/-- The three getters. -/
def config {C : Type} (kind : String) (configs : Configs C) (name : List UInt8) :
    Except StandardException C :=
  match configs.find name with
  | some entry => .ok entry.2
  | none =>
      .error (.msgpackRPC (.create .invalidArgument
        (text ("Configuration of " ++ kind ++ " not found: ") ++ name ++ text ".")))

def loggingConfig (p : ConfigParser) : List UInt8 → Except StandardException LoggingConfig :=
  config "logging" p.loggingConfigs

def clientConfig (p : ConfigParser) : List UInt8 → Except StandardException ClientConfig :=
  config "client" p.clientConfigs

def serverConfig (p : ConfigParser) : List UInt8 → Except StandardException ServerConfig :=
  config "server" p.serverConfigs

end ConfigParser

/-! ## A document as a list of places -/

inductive Kind where
  | logging
  | client
  | server
  deriving DecidableEq, Repr

def Kind.key : Kind → String
  | .logging => "logging"
  | .client => "client"
  | .server => "server"

/-- Where `parse` can throw: at a key of the root, or at one configuration. -/
inductive Place (V : Type) where
  | noTable (kind : Kind) (node : Node V)
  | config (kind : Kind) (entry : List UInt8 × Node V)

/-- A configuration with its name. -/
inductive Entry where
  | logging (c : List UInt8 × LoggingConfig)
  | client (c : List UInt8 × ClientConfig)
  | server (c : List UInt8 × ServerConfig)

namespace Entry

def logging? : Entry → Option (List UInt8 × LoggingConfig)
  | .logging c => some c
  | _ => none

def client? : Entry → Option (List UInt8 × ClientConfig)
  | .client c => some c
  | _ => none

def server? : Entry → Option (List UInt8 × ServerConfig)
  | .server c => some c
  | _ => none

end Entry

variable (lib : TomlLibrary V) (re2 : Addresses.URI.RE2)

/-- The configuration that a place stands for. -/
def Place.read : Place V → Except StandardException Entry
  | .noTable kind node => .error (notTableOfTables kind.key node.source)
  | .config .logging entry =>
      (parseConfig "logging" (parseLoggingConfig lib · {}) entry).map .logging
  | .config .client entry =>
      (parseConfig "client" (parseClientConfig lib re2 · {}) entry).map .client
  | .config .server entry =>
      (parseConfig "server" (parseServerConfig lib re2 · {}) entry).map .server

def sectionPlaces (root : Table V) (kind : Kind) : List (Place V) :=
  match root.lookup (text kind.key) with
  | none => []
  | some node =>
      match node.asTable with
      | none => [.noTable kind node]
      | some table => table.map (.config kind)

/-- The places of a document in the order in which `parse` comes to them. -/
def places (root : Table V) : List (Place V) :=
  sectionPlaces root .logging ++ (sectionPlaces root .client ++ sectionPlaces root .server)

namespace ConfigParser

/-- The parser with one more configuration, unless the name is taken. -/
def add (p : ConfigParser) : Entry → ConfigParser
  | .logging c => { p with loggingConfigs := p.loggingConfigs.emplace c }
  | .client c => { p with clientConfigs := p.clientConfigs.emplace c }
  | .server c => { p with serverConfigs := p.serverConfigs.emplace c }

/-- A part of `parse_toml` goes through the places of its key. -/
theorem applyUntil_sectionPlaces {C : Type} (kind : Kind)
    {parse : Table V → Except StandardException C} (entry : List UInt8 × C → Entry)
    (state : Configs C → ConfigParser)
    (hread : ∀ e, Place.read lib re2 (.config kind e) =
      (parseConfig kind.key parse e).map entry)
    (hadd : ∀ configs c, add (state configs) (entry c) = state (configs.emplace c))
    (root : Table V) (configs : Configs C) :
    applyUntil (Place.read lib re2) add (sectionPlaces root kind) (state configs) =
      ((parseSection kind.key parse root configs).1,
        state (parseSection kind.key parse root configs).2) := by
  unfold sectionPlaces parseSection
  split
  · rfl
  · rename_i node hnode
    cases node.asTable with
    | none => rfl
    | some table => exact applyUntil_map hread hadd table configs

theorem applyUntil_logging (root : Table V) (p : ConfigParser) :
    applyUntil (Place.read lib re2) add (sectionPlaces root .logging) p =
      ((parseLogging lib root p.loggingConfigs).1,
        { p with loggingConfigs := (parseLogging lib root p.loggingConfigs).2 }) :=
  applyUntil_sectionPlaces lib re2 .logging .logging
    (fun configs => { p with loggingConfigs := configs })
    (fun _ => rfl) (fun _ _ => rfl) root p.loggingConfigs

theorem applyUntil_client (root : Table V) (p : ConfigParser) :
    applyUntil (Place.read lib re2) add (sectionPlaces root .client) p =
      ((parseClient lib re2 root p.clientConfigs).1,
        { p with clientConfigs := (parseClient lib re2 root p.clientConfigs).2 }) :=
  applyUntil_sectionPlaces lib re2 .client .client
    (fun configs => { p with clientConfigs := configs })
    (fun _ => rfl) (fun _ _ => rfl) root p.clientConfigs

theorem applyUntil_server (root : Table V) (p : ConfigParser) :
    applyUntil (Place.read lib re2) add (sectionPlaces root .server) p =
      ((parseServer lib re2 root p.serverConfigs).1,
        { p with serverConfigs := (parseServer lib re2 root p.serverConfigs).2 }) :=
  applyUntil_sectionPlaces lib re2 .server .server
    (fun configs => { p with serverConfigs := configs })
    (fun _ => rfl) (fun _ _ => rfl) root p.serverConfigs

/-- The three parts of `parse_toml` are one loop over the places of the document. -/
theorem parseRoot_eq (root : Table V) (p : ConfigParser) :
    parseRoot lib re2 root p = applyUntil (Place.read lib re2) add (places root) p := by
  rw [places, applyUntil_append, applyUntil_logging, parseRoot]
  rcases parseLogging lib root p.loggingConfigs with ⟨_ | _, logging⟩
  · rfl
  dsimp only
  rw [applyUntil_append, applyUntil_client]
  rcases parseClient lib re2 root p.clientConfigs with ⟨_ | _, client⟩
  · rfl
  dsimp only
  rw [applyUntil_server]
  rcases parseServer lib re2 root p.serverConfigs with ⟨_ | _, server⟩
  · rfl
  · rfl

/-! ## What the maps have afterwards -/

/-- The maps of `p'` are those of `p` with the entries whose names are new. -/
structure Extends (p : ConfigParser) (entries : List Entry) (p' : ConfigParser) : Prop where
  logging : ∀ name, p'.loggingConfigs.find name =
    (p.loggingConfigs.find name).or ((entries.filterMap Entry.logging?).find? (·.1 = name))
  client : ∀ name, p'.clientConfigs.find name =
    (p.clientConfigs.find name).or ((entries.filterMap Entry.client?).find? (·.1 = name))
  server : ∀ name, p'.serverConfigs.find name =
    (p.serverConfigs.find name).or ((entries.filterMap Entry.server?).find? (·.1 = name))

/-- The name of the entry is taken. -/
def Knows (p : ConfigParser) : Entry → Prop
  | .logging c => (p.loggingConfigs.find c.1).isSome
  | .client c => (p.clientConfigs.find c.1).isSome
  | .server c => (p.serverConfigs.find c.1).isSome

theorem foldl_add (entries : List Entry) (p : ConfigParser) :
    entries.foldl add p =
      { loggingConfigs := (entries.filterMap Entry.logging?).foldl Dict.emplace p.loggingConfigs
        clientConfigs := (entries.filterMap Entry.client?).foldl Dict.emplace p.clientConfigs
        serverConfigs :=
          (entries.filterMap Entry.server?).foldl Dict.emplace p.serverConfigs } := by
  induction entries generalizing p with
  | nil => rfl
  | cons entry entries ih =>
    rw [List.foldl_cons, ih]
    cases entry with
    | logging c => rfl
    | client c => rfl
    | server c => rfl

theorem extends_foldl_add (p : ConfigParser) (entries : List Entry) :
    p.Extends entries (entries.foldl add p) := by
  rw [foldl_add]
  exact {
    logging := fun name => Dict.find_foldl_emplace _ _ name
    client := fun name => Dict.find_foldl_emplace _ _ name
    server := fun name => Dict.find_foldl_emplace _ _ name }

theorem add_of_knows {p : ConfigParser} {entry : Entry} (h : p.Knows entry) :
    p.add entry = p := by
  cases entry with
  | logging c => rw [add, Dict.emplace_of_taken h]
  | client c => rw [add, Dict.emplace_of_taken h]
  | server c => rw [add, Dict.emplace_of_taken h]

/-- A map that an extension leaves as it is has every name of the extension. -/
theorem find_isSome_of_extends_self {C : Type} {configs : Configs C} {l : List (List UInt8 × C)}
    (h : ∀ name, configs.find name = (configs.find name).or (l.find? (·.1 = name)))
    {c : List UInt8 × C} (hc : c ∈ l) : (configs.find c.1).isSome := by
  rw [h, Option.isSome_or, Bool.or_eq_true]
  right
  rw [List.find?_isSome]
  exact ⟨c, hc, decide_eq_true rfl⟩

theorem Extends.knows {p : ConfigParser} {entries : List Entry} (h : p.Extends entries p)
    {entry : Entry} (hentry : entry ∈ entries) : p.Knows entry := by
  cases entry with
  | logging c =>
    exact find_isSome_of_extends_self h.logging (List.mem_filterMap.mpr ⟨_, hentry, rfl⟩)
  | client c =>
    exact find_isSome_of_extends_self h.client (List.mem_filterMap.mpr ⟨_, hentry, rfl⟩)
  | server c =>
    exact find_isSome_of_extends_self h.server (List.mem_filterMap.mpr ⟨_, hentry, rfl⟩)

/-- Entries leave no trace exactly when none of their names is new. -/
theorem foldl_add_eq_self_iff {p : ConfigParser} {entries : List Entry} :
    entries.foldl add p = p ↔ ∀ entry ∈ entries, p.Knows entry := by
  constructor
  · intro h entry hentry
    have hextends : p.Extends entries p := by
      conv => arg 3; rw [← h]
      exact extends_foldl_add p entries
    exact hextends.knows hentry
  · intro h
    induction entries with
    | nil => rfl
    | cons entry entries ih =>
      rw [List.forall_mem_cons] at h
      rw [List.foldl_cons, add_of_knows h.1]
      exact ih h.2

/-! ## Exceptions -/

theorem error_of_parseConfig {C : Type} {kind : String}
    {parse : Table V → Except StandardException C} {e : StandardException}
    (hparse : ∀ table, parse table = .error e → NamesKey e) {entry : List UInt8 × Node V}
    (h : parseConfig kind parse entry = .error e) : NamesKey e := by
  unfold parseConfig at h
  split at h
  · cases h
    exact namesKey_invalidValueFor _ _ _
  · rename_i table htable
    cases hconfig : parse table with
    | ok config =>
      rw [hconfig] at h
      cases h
    | error e' =>
      rw [hconfig] at h
      cases h
      exact hparse table hconfig

theorem error_of_map {α β : Type} {f : α → β} {x : Except StandardException α}
    {e : StandardException} (h : x.map f = .error e) : x = .error e := by
  cases x with
  | ok a => cases h
  | error e' =>
    cases h
    rfl

/-- What a place throws names the key. -/
theorem error_of_read {place : Place V} {e : StandardException}
    (h : place.read lib re2 = .error e) : NamesKey e := by
  cases place with
  | noTable kind node =>
    cases h
    exact namesKey_invalidValueFor _ _ _
  | config kind entry =>
    cases kind with
    | logging =>
      exact error_of_parseConfig (fun _ => error_of_parseLoggingConfig lib) (error_of_map h)
    | client =>
      exact error_of_parseConfig (fun _ => error_of_parseClientConfig lib re2) (error_of_map h)
    | server =>
      exact error_of_parseConfig (fun _ => error_of_parseServerConfig lib re2) (error_of_map h)

theorem exists_message_of_namesKey {e : StandardException} (h : NamesKey e) :
    ∃ message, e = .msgpackRPC (.create .invalidArgument message) := by
  obtain ⟨source, key, rfl | ⟨message, rfl⟩⟩ := h
  · exact ⟨_, rfl⟩
  · exact ⟨_, rfl⟩

variable {lib re2} {filePath : List UInt8} {root : Table V} {p p' : ConfigParser}

theorem parse_ok_iff :
    parse lib re2 filePath (.ok root) p = (.ok (), p') ↔
      ∃ entries, Reads (Place.read lib re2) (places root) entries ∧
        p' = entries.foldl add p := by
  rw [← applyUntil_ok_iff, ← parseRoot_eq, parse]
  rcases parseRoot lib re2 root p with ⟨e | _, q⟩
  · cases e with
    | msgpackRPC status => simp
    | typeError => rfl
    | other what => rfl
  · rfl

/-- A failed parse has added the configurations of the places before one place, and the exception is
that of this place with the name of the file. -/
theorem exists_of_parse_error {e : StandardException}
    (h : parse lib re2 filePath (.ok root) p = (.error e, p')) :
    ∃ before place after entries message, places root = before ++ place :: after ∧
      Reads (Place.read lib re2) before entries ∧
      place.read lib re2 = .error (.msgpackRPC (.create .invalidArgument message)) ∧
      e = failedToParse filePath message ∧ p' = entries.foldl add p := by
  rw [parse, parseRoot_eq] at h
  rcases hroot : applyUntil (Place.read lib re2) add (places root) p with ⟨cause | _, q⟩
  · obtain ⟨before, place, after, entries, hplaces, hreads, hplace, hq⟩ :=
      applyUntil_error_iff.mp hroot
    obtain ⟨message, rfl⟩ := exists_message_of_namesKey (error_of_read lib re2 hplace)
    rw [hroot] at h
    cases h
    exact ⟨before, place, after, entries, message, hplaces, hreads, hplace, rfl, hq⟩
  · rw [hroot] at h
    cases h

/-- Whatever `parse` does, it only adds names to the maps. -/
theorem exists_extends_parse (lib : TomlLibrary V) (re2 : Addresses.URI.RE2)
    (filePath : List UInt8) (file : Except ParseError (Table V)) (p : ConfigParser) :
    ∃ entries, p.Extends entries (parse lib re2 filePath file p).2 := by
  cases file with
  | error e => exact ⟨[], extends_foldl_add p []⟩
  | ok root =>
    rcases hparse : parse lib re2 filePath (.ok root) p with ⟨e | _, p'⟩
    · obtain ⟨_, _, _, entries, _, -, -, -, -, rfl⟩ := exists_of_parse_error hparse
      exact ⟨entries, extends_foldl_add p entries⟩
    · obtain ⟨entries, -, rfl⟩ := parse_ok_iff.mp hparse
      exact ⟨entries, extends_foldl_add p entries⟩

/-- A parse that succeeds extends the maps by the configurations of the document; one that throws
extends them by the configurations before the place that is not accepted, and this is no change
exactly when none of them has a new name. -/
theorem parse_extends (lib : TomlLibrary V) (re2 : Addresses.URI.RE2) (filePath : List UInt8)
    (root : Table V) (p : ConfigParser) :
    (∀ p', parse lib re2 filePath (.ok root) p = (.ok (), p') →
      ∃ entries, Reads (Place.read lib re2) (places root) entries ∧ p.Extends entries p') ∧
    ∀ e p', parse lib re2 filePath (.ok root) p = (.error e, p') →
      ∃ before place after entries message, places root = before ++ place :: after ∧
        Reads (Place.read lib re2) before entries ∧
        place.read lib re2 = .error (.msgpackRPC (.create .invalidArgument message)) ∧
        e = failedToParse filePath message ∧ p.Extends entries p' ∧
        (p' = p ↔ ∀ entry ∈ entries, p.Knows entry) := by
  constructor
  · intro p' h
    obtain ⟨entries, hreads, rfl⟩ := parse_ok_iff.mp h
    exact ⟨entries, hreads, extends_foldl_add p entries⟩
  · intro e p' h
    obtain ⟨before, place, after, entries, message, hplaces, hreads, hplace, he, rfl⟩ :=
      exists_of_parse_error h
    exact ⟨before, place, after, entries, message, hplaces, hreads, hplace, he,
      extends_foldl_add p entries, foldl_add_eq_self_iff⟩

/-- The conversions in documents whose scalars are all strings. -/
def strings : TomlLibrary (List UInt8) where
  asString := some
  valueString := some
  valueSize _ := none
  valueDuration _ := none

/-- A logger without any key, and a text in the place of the clients. -/
def loggerThenText : Table (List UInt8) :=
  [(text "client", .scalar { line := 3 } (text "abc")),
    (text "logging", .table { line := 1 } [(text "example", .table { line := 1 } [])])]

theorem parse_leaves_logger :
    ¬ ∀ (filePath : List UInt8) (root : Table (List UInt8)) (p p' : ConfigParser)
      (e : StandardException),
      parse strings Addresses.URI.utf8RE2 filePath (.ok root) p = (.error e, p') → p' = p := by
  intro h
  have heq := h (text "a.toml") loggerThenText {} _ _ rfl
  have hfind := congrArg
    (fun p : ConfigParser => (p.loggingConfigs.find (text "example")).isSome) heq
  revert hfind
  decide

/-! ## Several files -/

/-- Files are parsed one after the other, and the exceptions are caught. -/
def parseFiles (lib : TomlLibrary V) (re2 : Addresses.URI.RE2)
    (files : List (List UInt8 × Except ParseError (Table V))) (p : ConfigParser) : ConfigParser :=
  files.foldl (fun p (filePath, file) => (parse lib re2 filePath file p).2) p

/-- What a getter finds stays what it finds. -/
structure Keeps (p p' : ConfigParser) : Prop where
  logging : ∀ name c, p.loggingConfig name = .ok c → p'.loggingConfig name = .ok c
  client : ∀ name c, p.clientConfig name = .ok c → p'.clientConfig name = .ok c
  server : ∀ name c, p.serverConfig name = .ok c → p'.serverConfig name = .ok c

theorem config_ok_iff {C : Type} {kind : String} {configs : Configs C} {name : List UInt8} {c : C} :
    config kind configs name = .ok c ↔ (configs.find name).map Prod.snd = some c := by
  unfold config
  cases configs.find name with
  | none => simp
  | some entry => simp

theorem config_of_extends {C : Type} {kind : String} {configs configs' : Configs C}
    {l : List (List UInt8 × C)} {name : List UInt8} {c : C}
    (h : configs'.find name = (configs.find name).or (l.find? (·.1 = name)))
    (hc : config kind configs name = .ok c) : config kind configs' name = .ok c := by
  rw [config_ok_iff] at hc ⊢
  obtain ⟨entry, hentry, rfl⟩ := Option.map_eq_some_iff.mp hc
  rw [h, hentry, Option.some_or, Option.map_some]

theorem Extends.keeps {entries : List Entry} (h : p.Extends entries p') : p.Keeps p' where
  logging name _ hc := config_of_extends (h.logging name) hc
  client name _ hc := config_of_extends (h.client name) hc
  server name _ hc := config_of_extends (h.server name) hc

theorem Keeps.trans {q : ConfigParser} (h : p.Keeps p') (h' : p'.Keeps q) : p.Keeps q where
  logging name c hc := h'.logging name c (h.logging name c hc)
  client name c hc := h'.client name c (h.client name c hc)
  server name c hc := h'.server name c (h.server name c hc)

/-- No file, accepted or not, changes a configuration that an earlier one has given. -/
theorem keeps_parseFiles (lib : TomlLibrary V) (re2 : Addresses.URI.RE2)
    (files : List (List UInt8 × Except ParseError (Table V))) (p : ConfigParser) :
    p.Keeps (parseFiles lib re2 files p) := by
  induction files generalizing p with
  | nil => exact (extends_foldl_add p []).keeps
  | cons file files ih =>
    obtain ⟨entries, hextends⟩ := exists_extends_parse lib re2 file.1 file.2 p
    exact hextends.keeps.trans (ih _)

end ConfigParser

end MsgpackRpc.Config
