import MsgpackRpc.Clients.CallRegistry
import MsgpackRpc.Clients.Client
import MsgpackRpc.Lib.ByteStream
import MsgpackRpc.Messages.Codec
import MsgpackRpc.Methods.MethodProcessor
import MsgpackRpc.Servers.ServerConnection

/-!
# A client and its server

The list of calls, the sender and the connections of a client, with the server connection at the
other end of each of them and the bytes on their way.  Callers, handlers and callback contexts of
both sides take their steps in any order, and the network cuts the bytes into any pieces.
-/

namespace MsgpackRpc.Rpc

open Msgpack (Value)
open Messages Methods
open MsgpackRpc.Transport
open Clients (CallList CallListAction Client ClientAction Create MessageID)
open Servers (Invocation ServerAction ServerConnection)

abbrev Bytes := List UInt8

/-- What a caller gives to `async_call` or `notify`. -/
structure Asked where
  methodName : List UInt8
  parameters : List Value

/-- A request as the processor of the server gets it. -/
def Asked.request (asked : Asked) (id : MessageID) : ParsedRequest where
  id := id
  methodName := asked.methodName
  parameters := ⟨asked.parameters⟩

/-- What a run depends on besides its schedule.  `methods n` is the dictionary of the server with
its functions as they behave when the processor is called for the `n`-th time. -/
structure Setting where
  codec : Codec
  clientBuffer : Nat
  serverBuffer : Nat
  methods : Nat → MethodDict

namespace Setting

variable (st : Setting)

def clientParser : MessageParser ParsedMessage := st.codec.parser st.clientBuffer

def serverParser : MessageParser ParsedMessage := st.codec.parser st.serverBuffer

def serializeRequest (request : ParsedRequest) : Option Bytes :=
  MessageSerializer.serializeRequest st.codec.lib request.methodName request.id
    request.parameters.items

def serializeNotification (asked : Asked) : Option Bytes :=
  MessageSerializer.serializeNotification st.codec.lib asked.methodName asked.parameters

end Setting

/-- A connection of the client, by what is at its other end and in between. -/
structure Link where
  server : ServerConnection Bytes := {}
  toServer : ByteStream := {}
  toClient : ByteStream := {}
  /-- The messages of the last handler whose `on_received` is still to come. -/
  arrived : List ParsedMessage := []
  /-- Everything that the connection of the client has received. -/
  received : List ParsedMessage := []

/-- The links stand in the order of the connections of the client.  The fields after `links` only
record what has happened: what each `create` has been called with, the calls and the notifications
that have gone to the sender, and what the processor of the server has returned from. -/
structure Session where
  calls : CallList CallResult
  client : Client Bytes := {}
  links : List Link := []
  asked : List Asked := []
  sent : List Nat := []
  notified : List Asked := []
  processed : List Invocation := []

inductive Action where
  | asyncCall (asked : Asked)
  /-- The next step of the `i`-th `CallList::create`. -/
  | create (i : Nat)
  /-- The `i`-th `async_call` gives its request to the sender. -/
  | send (i : Nat)
  | notify (asked : Asked)
  | expire (id : MessageID)
  | onTimeout (j : Nat)
  | client (a : ClientAction Bytes)
  /-- `ReceivedMessageProcessor` gets the next message of connection `c`. -/
  | receive (c : Nat)
  | server (c : Nat) (a : ServerAction Bytes)
  /-- The processor returns to routine `i` of server connection `c`, or throws. -/
  | process (c i : Nat)
  /-- Write `i` of an end of connection `c` transfers its next `n` bytes. -/
  | toServer (c i n : Nat)
  | toClient (c i n : Nat)

/-- What a handler of a connection does to the bytes that leave it. -/
def sends {μ : Type} (bytes : μ → Bytes) (c : Connection μ) (out : ByteStream) :
    Connection.Event → Option ByteStream
  | .task i _ =>
      match c.tasks[i]? with
      | some (.asyncSendInThread message) => some (out.startWrite (bytes message))
      | _ => some out
  | .write i error => out.endWrite i error.isSome
  | .read .. => some out

/-- What a handler of a connection does to the bytes that arrive at it. -/
def receives (input : ByteStream) : Connection.Event → Option ByteStream
  | .read _ none bytes _ => input.takeBytes bytes
  | _ => some input

/-- Write `i` has been started on an open socket, which is still open. -/
def transfers {μ : Type} (c : Connection μ) (i : Nat) : Bool :=
  c.socket == .opened && c.writes[i]?.any fun w => w.2 == .opened

namespace Session

variable (st : Setting)

def setLink (s : Session) (c : Nat) (link : Link) : Session :=
  { s with links := s.links.set c link }

/-- A step of `CallList::create`: its serializer throws where the request has no room. -/
def createStep (s : Session) (i : Nat) (asked : Asked) (create : Create) : Option Session :=
  let a : CallListAction CallResult :=
    match create with
    | .serialize request =>
        if (st.serializeRequest (asked.request request.id)).isSome then .step i
        else .serializationFails i
    | _ => .step i
  (s.calls.step a).map fun calls => { s with calls }

/-- `sender_->send` of the `i`-th call, once its `create` has returned. -/
def send (s : Session) (i : Nat) (asked : Asked) (create : Create) : Option Session :=
  match create with
  | .returned request _ =>
      if i ∈ s.sent then none
      else (st.serializeRequest (asked.request request.id)).bind fun bytes =>
        (s.client.step st.clientParser (.send bytes (some request.id))).map fun client =>
          { s with client, sent := s.sent ++ [i] }
  | _ => none

def notify (s : Session) (asked : Asked) : Option Session :=
  match st.serializeNotification asked with
  -- the exception of the serializer leaves `notify`
  | none => some s
  | some bytes =>
      (s.client.step st.clientParser (.send bytes none)).map fun client =>
        { s with client, notified := s.notified ++ [asked] }

/-- A handler of connection `c` of the client, which waits until the callbacks of the one before it
have run. -/
def clientContext (s : Session) (c : Nat) (e : Connection.Event)
    (k : Connection (Clients.Entry Bytes)) (link : Link) : Option Session :=
  if !link.arrived.isEmpty then none
  else
    (sends Clients.Entry.message k link.toServer e).bind fun toServer =>
      (receives link.toClient e).bind fun toClient =>
        (s.client.step st.clientParser (.context c e)).map fun client =>
          let arrived := e.received st.clientParser k
          { s with client }.setLink c
            { link with toServer, toClient, arrived, received := link.received ++ arrived }

/-- A connection that the client registers has a server connection at its other end. -/
def clientStep (s : Session) : ClientAction Bytes → Option Session
  | .send _ _ => none
  | .context c e =>
      match s.client.connections[c]?, s.links[c]? with
      | some k, some link => s.clientContext st c e k link
      | _, _ => none
  | a =>
      (s.client.step st.clientParser a).map fun client =>
        let registered := client.connections.length - s.client.connections.length
        { s with client, links := s.links ++ List.replicate registered {} }

/-- `ReceivedMessageProcessor::operator()`: whatever is no response is only logged. -/
def receive (s : Session) (c : Nat) (link : Link) : Option Session :=
  match link.arrived with
  | [] => none
  | .response response :: arrived =>
      (s.calls.step (.handle ⟨response.id, response.result⟩)).map fun calls =>
        { s with calls }.setLink c { link with arrived }
  | _ :: arrived => some (s.setLink c { link with arrived })

def serverStep (s : Session) (c : Nat) (link : Link) : ServerAction Bytes → Option Session
  -- the steps in which the processor returns
  | .answer _ _ | .notified _ _ => none
  | .context e =>
      (sends id link.server.connection link.toClient e).bind fun toClient =>
        (receives link.toServer e).bind fun toServer =>
          (link.server.step st.serverParser (.context e)).map fun server =>
            s.setLink c { link with server, toServer, toClient }
  | a =>
      (link.server.step st.serverParser a).map fun server => s.setLink c { link with server }

/-- `processor_->call` or `processor_->notify` has come to its end. -/
def process (s : Session) (c : Nat) (link : Link) (i : Nat) (pc : Servers.Pc Bytes) :
    Option Session :=
  let methods := st.methods s.processed.length
  match pc with
  | .call request =>
      let called := MethodProcessor.call st.codec.lib methods request
      (link.server.step st.serverParser (.answer i called.toOption)).map fun server =>
        let processed := s.processed ++ [Invocation.request request]
        { s with processed }.setLink c { link with server }
  | .notify notification =>
      let returned := (MethodProcessor.notify methods notification).toOption.isSome
      (link.server.step st.serverParser (.notified i returned)).map fun server =>
        let processed := s.processed ++ [Invocation.notification notification]
        { s with processed }.setLink c { link with server }
  | _ => none

def step (s : Session) : Action → Option Session
  | .asyncCall asked =>
      (s.calls.step .create).map fun calls => { s with calls, asked := s.asked ++ [asked] }
  | .create i =>
      match s.asked[i]?, s.calls.creates[i]? with
      | some asked, some create => s.createStep st i asked create
      | _, _ => none
  | .send i =>
      match s.asked[i]?, s.calls.creates[i]? with
      | some asked, some create => s.send st i asked create
      | _, _ => none
  | .notify asked => s.notify st asked
  | .expire id => (s.calls.step (.expire id)).map fun calls => { s with calls }
  | .onTimeout j => (s.calls.step (.onTimeout j)).map fun calls => { s with calls }
  | .client a => s.clientStep st a
  | .receive c => s.links[c]?.bind fun link => s.receive c link
  | .server c a => s.links[c]?.bind fun link => s.serverStep st c link a
  | .process c i =>
      s.links[c]?.bind fun link =>
        link.server.routines[i]?.bind fun r => s.process st c link i r.pc
  | .toServer c i n =>
      match s.client.connections[c]?, s.links[c]? with
      | some k, some link =>
          if transfers k i then
            (link.toServer.transfer i n).map fun toServer => s.setLink c { link with toServer }
          else none
      | _, _ => none
  | .toClient c i n =>
      s.links[c]?.bind fun link =>
        if transfers link.server.connection i then
          (link.toClient.transfer i n).map fun toClient => s.setLink c { link with toClient }
        else none

end Session

/-- The generator of the client starts from `first`. -/
def sessionMachine (st : Setting) (first : MessageID) : Machine Session Action where
  init := { calls := { nextId := first } }
  step := Session.step st

/-! ## What a step can do -/

/-- The steps of the list of calls that neither begin a call nor bring a response. -/
def isOwnStep : CallListAction CallResult → Bool
  | .create | .handle _ => false
  | _ => true

/-- The actions that take such a step. -/
def Action.isOfCalls : Action → Bool
  | .create _ | .expire _ | .onTimeout _ => true
  | _ => false

/-- A step of the client besides those that the network or a caller takes part in. -/
def isOwnClientStep : ClientAction Bytes → Bool
  | .send _ _ | .context _ _ => false
  | _ => true

/-- A step of a server connection in which the processor does not return. -/
def isOwnServerStep : ServerAction Bytes → Bool
  | .answer _ _ | .notified _ _ | .context _ => false
  | _ => true

namespace Session

variable (st : Setting)

/-- The steps of a client and its server. -/
inductive Steps (s : Session) : Action → Session → Prop where
  | asyncCall {asked calls} (hcalls : s.calls.step .create = some calls) :
      Steps s (.asyncCall asked) { s with calls, asked := s.asked ++ [asked] }
  | calls {a b calls} (hown : isOwnStep b = true) (hcalls : s.calls.step b = some calls)
      (ha : a.isOfCalls = true) : Steps s a { s with calls }
  | sent {i asked request promise bytes client} (hasked : s.asked[i]? = some asked)
      (hcreate : s.calls.creates[i]? = some (.returned request promise)) (hnew : i ∉ s.sent)
      (hbytes : st.serializeRequest (asked.request request.id) = some bytes)
      (hclient : s.client.step st.clientParser (.send bytes (some request.id)) = some client) :
      Steps s (.send i) { s with client, sent := s.sent ++ [i] }
  | notified {asked bytes client} (hbytes : st.serializeNotification asked = some bytes)
      (hclient : s.client.step st.clientParser (.send bytes none) = some client) :
      Steps s (.notify asked) { s with client, notified := s.notified ++ [asked] }
  | notifyThrown {asked} : Steps s (.notify asked) s
  | clientContext {c e k link toServer toClient client}
      (hk : s.client.connections[c]? = some k) (hlink : s.links[c]? = some link)
      (harrived : link.arrived = [])
      (hsends : sends Clients.Entry.message k link.toServer e = some toServer)
      (hreceives : receives link.toClient e = some toClient)
      (hclient : s.client.step st.clientParser (.context c e) = some client) :
      Steps s (.client (.context c e)) ({ s with client }.setLink c
        { link with
          toServer
          toClient
          arrived := e.received st.clientParser k
          received := link.received ++ e.received st.clientParser k })
  | client {a client} (hown : isOwnClientStep a = true)
      (hclient : s.client.step st.clientParser a = some client) :
      Steps s (.client a) { s with
        client
        links := s.links ++
          List.replicate (client.connections.length - s.client.connections.length) {} }
  | received {c link response arrived calls} (hlink : s.links[c]? = some link)
      (harrived : link.arrived = .response response :: arrived)
      (hcalls : s.calls.step (.handle ⟨response.id, response.result⟩) = some calls) :
      Steps s (.receive c) ({ s with calls }.setLink c { link with arrived })
  | ignored {c link m arrived} (hlink : s.links[c]? = some link)
      (harrived : link.arrived = m :: arrived) (hm : ∀ response, m ≠ .response response) :
      Steps s (.receive c) (s.setLink c { link with arrived })
  | serverContext {c e link toClient toServer server} (hlink : s.links[c]? = some link)
      (hsends : sends id link.server.connection link.toClient e = some toClient)
      (hreceives : receives link.toServer e = some toServer)
      (hserver : link.server.step st.serverParser (.context e) = some server) :
      Steps s (.server c (.context e)) (s.setLink c { link with server, toServer, toClient })
  | server {c a link server} (hlink : s.links[c]? = some link) (hown : isOwnServerStep a = true)
      (hserver : link.server.step st.serverParser a = some server) :
      Steps s (.server c a) (s.setLink c { link with server })
  | called {c i link r request server} (hlink : s.links[c]? = some link)
      (hr : link.server.routines[i]? = some r) (hpc : r.pc = .call request)
      (hserver : link.server.step st.serverParser (.answer i
        (MethodProcessor.call st.codec.lib (st.methods s.processed.length) request).toOption) =
          some server) :
      Steps s (.process c i)
        ({ s with processed := s.processed ++ [Invocation.request request] }.setLink c
          { link with server })
  | notifiedMethod {c i link r notification returned server} (hlink : s.links[c]? = some link)
      (hr : link.server.routines[i]? = some r) (hpc : r.pc = .notify notification)
      (hserver : link.server.step st.serverParser (.notified i returned) = some server) :
      Steps s (.process c i)
        ({ s with processed := s.processed ++ [Invocation.notification notification] }.setLink c
          { link with server })
  | toServer {c i n link toServer} (hlink : s.links[c]? = some link)
      (htransfer : link.toServer.transfer i n = some toServer) :
      Steps s (.toServer c i n) (s.setLink c { link with toServer })
  | toClient {c i n link toClient} (hlink : s.links[c]? = some link)
      (htransfer : link.toClient.transfer i n = some toClient) :
      Steps s (.toClient c i n) (s.setLink c { link with toClient })

variable {st} {s s' : Session}

theorem steps_of_createStep {i : Nat} {asked : Asked} {create : Create}
    (h : s.createStep st i asked create = some s') : Steps st s (.create i) s' := by
  obtain ⟨calls, hcalls, rfl⟩ := Option.map_eq_some_iff.mp h
  refine .calls ?_ hcalls rfl
  cases create with
  | serialize request =>
    dsimp only
    split <;> rfl
  | _ => rfl

theorem steps_of_send {i : Nat} {asked : Asked} {create : Create}
    (hasked : s.asked[i]? = some asked) (hcreate : s.calls.creates[i]? = some create)
    (h : s.send st i asked create = some s') : Steps st s (.send i) s' := by
  cases create with
  | returned request promise =>
    rw [send, Option.ite_none_left_eq_some] at h
    obtain ⟨hnew, h⟩ := h
    obtain ⟨bytes, hbytes, h⟩ := Option.bind_eq_some_iff.mp h
    obtain ⟨client, hclient, rfl⟩ := Option.map_eq_some_iff.mp h
    exact .sent hasked hcreate hnew hbytes hclient
  | _ => cases h

theorem steps_of_notify {asked : Asked} (h : s.notify st asked = some s') :
    Steps st s (.notify asked) s' := by
  unfold notify at h
  split at h
  · cases h
    exact .notifyThrown
  · rename_i bytes hbytes
    obtain ⟨client, hclient, rfl⟩ := Option.map_eq_some_iff.mp h
    exact .notified hbytes hclient

theorem steps_of_clientStep {a : ClientAction Bytes} (h : s.clientStep st a = some s') :
    Steps st s (.client a) s' := by
  have own (hown : isOwnClientStep a = true)
      (h : ((s.client.step st.clientParser a).map fun client => { s with
        client
        links := s.links ++
          List.replicate (client.connections.length - s.client.connections.length) {} }) =
            some s') : Steps st s (.client a) s' := by
    obtain ⟨client, hclient, rfl⟩ := Option.map_eq_some_iff.mp h
    exact .client hown hclient
  cases a with
  | send => cases h
  | context c e =>
    rw [clientStep] at h
    split at h
    · rename_i k link hk hlink
      rw [clientContext, Option.ite_none_left_eq_some] at h
      obtain ⟨harrived, h⟩ := h
      obtain ⟨toServer, hsends, h⟩ := Option.bind_eq_some_iff.mp h
      obtain ⟨toClient, hreceives, h⟩ := Option.bind_eq_some_iff.mp h
      obtain ⟨client, hclient, rfl⟩ := Option.map_eq_some_iff.mp h
      exact .clientContext hk hlink (by simpa using harrived) hsends hreceives hclient
    · cases h
  | _ => exact own rfl h

theorem steps_of_receive {c : Nat} {link : Link} (hlink : s.links[c]? = some link)
    (h : s.receive c link = some s') : Steps st s (.receive c) s' := by
  unfold receive at h
  split at h
  · cases h
  · rename_i response arrived harrived
    obtain ⟨calls, hcalls, rfl⟩ := Option.map_eq_some_iff.mp h
    exact .received hlink harrived hcalls
  · rename_i m arrived hm harrived
    cases h
    exact .ignored hlink harrived hm

theorem steps_of_serverStep {c : Nat} {link : Link} {a : ServerAction Bytes}
    (hlink : s.links[c]? = some link) (h : s.serverStep st c link a = some s') :
    Steps st s (.server c a) s' := by
  have own (hown : isOwnServerStep a = true)
      (h : ((link.server.step st.serverParser a).map fun server =>
        s.setLink c { link with server }) = some s') : Steps st s (.server c a) s' := by
    obtain ⟨server, hserver, rfl⟩ := Option.map_eq_some_iff.mp h
    exact .server hlink hown hserver
  cases a with
  | answer => cases h
  | notified => cases h
  | context e =>
    obtain ⟨toClient, hsends, h⟩ := Option.bind_eq_some_iff.mp h
    obtain ⟨toServer, hreceives, h⟩ := Option.bind_eq_some_iff.mp h
    obtain ⟨server, hserver, rfl⟩ := Option.map_eq_some_iff.mp h
    exact .serverContext hlink hsends hreceives hserver
  | _ => exact own rfl h

theorem steps_of_process {c i : Nat} {link : Link} {r : Servers.Routine Bytes}
    (hlink : s.links[c]? = some link) (hr : link.server.routines[i]? = some r)
    (h : s.process st c link i r.pc = some s') : Steps st s (.process c i) s' := by
  unfold process at h
  split at h
  · rename_i hpc
    obtain ⟨server, hserver, rfl⟩ := Option.map_eq_some_iff.mp h
    exact .called hlink hr hpc hserver
  · rename_i hpc
    obtain ⟨server, hserver, rfl⟩ := Option.map_eq_some_iff.mp h
    exact .notifiedMethod hlink hr hpc hserver
  · cases h

theorem steps_of_step {a : Action} (h : s.step st a = some s') : Steps st s a s' := by
  cases a with
  | asyncCall asked =>
    rw [step] at h
    obtain ⟨calls, hcalls, rfl⟩ := Option.map_eq_some_iff.mp h
    exact .asyncCall hcalls
  | create i =>
    rw [step] at h
    split at h
    · exact steps_of_createStep h
    · cases h
  | send i =>
    rw [step] at h
    split at h
    · exact steps_of_send ‹_› ‹_› h
    · cases h
  | notify asked => exact steps_of_notify h
  | expire id =>
    obtain ⟨calls, hcalls, rfl⟩ := Option.map_eq_some_iff.mp h
    exact .calls rfl hcalls rfl
  | onTimeout j =>
    obtain ⟨calls, hcalls, rfl⟩ := Option.map_eq_some_iff.mp h
    exact .calls rfl hcalls rfl
  | client a => exact steps_of_clientStep h
  | receive c =>
    obtain ⟨link, hlink, h⟩ := Option.bind_eq_some_iff.mp h
    exact steps_of_receive hlink h
  | server c a =>
    obtain ⟨link, hlink, h⟩ := Option.bind_eq_some_iff.mp h
    exact steps_of_serverStep hlink h
  | process c i =>
    obtain ⟨link, hlink, h⟩ := Option.bind_eq_some_iff.mp h
    obtain ⟨r, hr, h⟩ := Option.bind_eq_some_iff.mp h
    exact steps_of_process hlink hr h
  | toServer c i n =>
    rw [step] at h
    split at h
    · rename_i k link hk hlink
      rw [Option.ite_none_right_eq_some] at h
      obtain ⟨toServer, htransfer, rfl⟩ := Option.map_eq_some_iff.mp h.2
      exact .toServer hlink htransfer
    · cases h
  | toClient c i n =>
    obtain ⟨link, hlink, h⟩ := Option.bind_eq_some_iff.mp h
    rw [Option.ite_none_right_eq_some] at h
    obtain ⟨toClient, htransfer, rfl⟩ := Option.map_eq_some_iff.mp h.2
    exact .toClient hlink htransfer

end Session

end MsgpackRpc.Rpc
