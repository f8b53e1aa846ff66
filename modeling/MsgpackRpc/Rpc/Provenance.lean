import MsgpackRpc.Clients.CallCompletion
import MsgpackRpc.Clients.CallOrigin
import MsgpackRpc.Clients.MessageSource
import MsgpackRpc.Rpc.Session
import MsgpackRpc.Servers.ResponseSource

/-!
# Where everything on the way comes from

Every message between a client and its server is the serialized form of what a caller has asked for,
or of what the processor has returned for it.  The invariant follows the messages through the
sender, the pieces of the stream, the parser and the callback contexts of both sides.
-/

namespace MsgpackRpc.Rpc

open Messages Methods
open MsgpackRpc.Transport
open Clients (CallList CallListAction Client ClientAction Create MessageID)
open Servers (Invocation ServerAction ServerConnection)

namespace Session

/-- The request of the `i`-th call, which has returned from `create`. -/
def requestOf (s : Session) (i : Nat) : Option ParsedRequest :=
  match s.asked[i]?, s.calls.creates[i]? with
  | some asked, some (.returned request _) => some (asked.request request.id)
  | _, _ => none

/-- The client has given the invocation to its sender. -/
inductive Requested (s : Session) : Invocation → Prop where
  | request {i : Nat} {request : ParsedRequest} (hsent : i ∈ s.sent)
      (hrequest : s.requestOf i = some request) : Requested s (.request request)
  | notification {asked : Asked} (hasked : asked ∈ s.notified) :
      Requested s (.notification
        { methodName := asked.methodName, parameters := ⟨asked.parameters⟩ })

/-- The bytes of a request or a notification that has been given to the sender. -/
inductive Serialized (st : Setting) (s : Session) : Bytes → Prop where
  | request {i : Nat} {request : ParsedRequest} {bytes : Bytes} (hsent : i ∈ s.sent)
      (hrequest : s.requestOf i = some request)
      (hbytes : st.serializeRequest request = some bytes) : Serialized st s bytes
  | notification {asked : Asked} {bytes : Bytes} (hasked : asked ∈ s.notified)
      (hbytes : st.serializeNotification asked = some bytes) : Serialized st s bytes

/-- The processor has returned the bytes for the request. -/
def ReturnedFor (st : Setting) (s : Session) (request : ParsedRequest) (bytes : Bytes) : Prop :=
  ∃ n, s.processed[n]? = some (.request request) ∧
    MethodProcessor.call st.codec.lib (st.methods n) request = .ok bytes

def Returned (st : Setting) (s : Session) (bytes : Bytes) : Prop :=
  ∃ request, s.ReturnedFor st request bytes

/-- The processor has been called for the request, and what it has returned says `result`. -/
def Answered (st : Setting) (s : Session) (request : ParsedRequest) (result : CallResult) : Prop :=
  ∃ n bytes, s.processed[n]? = some (.request request) ∧
    MethodProcessor.call st.codec.lib (st.methods n) request = .ok bytes ∧
    parseBytes st.codec.lib bytes = some (.response { id := request.id, result })

/-- The message is what the processor has answered to a request. -/
def Replied (st : Setting) (s : Session) (m : ParsedMessage) : Prop :=
  ∃ request result, m = .response { id := request.id, result } ∧ s.Answered st request result

/-- What has been recorded stays. -/
structure Grows (s s' : Session) : Prop where
  requests : ∀ i request, s.requestOf i = some request → s'.requestOf i = some request
  sent : s.sent <+: s'.sent
  notified : s.notified <+: s'.notified
  processed : s.processed <+: s'.processed

variable {st : Setting} {s s' : Session}

theorem requestOf_eq_some {i : Nat} {request : ParsedRequest} :
    s.requestOf i = some request ↔ ∃ asked create promise, s.asked[i]? = some asked ∧
      s.calls.creates[i]? = some (.returned create promise) ∧
      asked.request create.id = request := by
  constructor
  · intro h
    unfold requestOf at h
    split at h
    · exact ⟨_, _, _, ‹_›, ‹_›, Option.some.inj h⟩
    · cases h
  · rintro ⟨asked, create, promise, hasked, hcreate, rfl⟩
    simp only [requestOf, hasked, hcreate]

/-- A call that has returned from `create` keeps its request. -/
theorem requestOf_calls {a : CallListAction CallResult}
    (hsteps : CallList.Steps s.calls a s'.calls) (hasked : s.asked <+: s'.asked) {i : Nat}
    {request : ParsedRequest} (h : s.requestOf i = some request) :
    s'.requestOf i = some request := by
  obtain ⟨asked, create, promise, hi, hcreate, hrequest⟩ := requestOf_eq_some.mp h
  exact requestOf_eq_some.mpr ⟨asked, create, promise, List.getElem?_of_prefix hasked hi,
    hsteps.keeps_returned hcreate, hrequest⟩

theorem Requested.mono (hgrows : Grows s s') {invocation : Invocation}
    (h : s.Requested invocation) : s'.Requested invocation := by
  cases h with
  | request hsent hrequest =>
    exact .request (hgrows.sent.subset hsent) (hgrows.requests _ _ hrequest)
  | notification hasked => exact .notification (hgrows.notified.subset hasked)

theorem Serialized.mono (hgrows : Grows s s') {bytes : Bytes} (h : Serialized st s bytes) :
    Serialized st s' bytes := by
  cases h with
  | request hsent hrequest hbytes =>
    exact .request (hgrows.sent.subset hsent) (hgrows.requests _ _ hrequest) hbytes
  | notification hasked hbytes => exact .notification (hgrows.notified.subset hasked) hbytes

theorem ReturnedFor.mono (hgrows : Grows s s') {request : ParsedRequest} {bytes : Bytes}
    (h : s.ReturnedFor st request bytes) : s'.ReturnedFor st request bytes := by
  obtain ⟨n, hn, hcall⟩ := h
  exact ⟨n, List.getElem?_of_prefix hgrows.processed hn, hcall⟩

/-- The processor has just returned a response. -/
theorem returnedFor_call {request : ParsedRequest} {bytes : Bytes} (h : (MethodProcessor.call
    st.codec.lib (st.methods s.processed.length) request).toOption = some bytes) :
    ReturnedFor st { s with processed := s.processed ++ [.request request] } request bytes := by
  refine ⟨s.processed.length, List.getElem?_concat_length, ?_⟩
  cases hcalled : MethodProcessor.call st.codec.lib (st.methods s.processed.length) request with
  | ok called =>
    rw [hcalled] at h
    cases h
    rfl
  | error =>
    rw [hcalled] at h
    cases h

theorem Returned.mono (hgrows : Grows s s') {bytes : Bytes} (h : s.Returned st bytes) :
    s'.Returned st bytes := by
  obtain ⟨request, hreturned⟩ := h
  exact ⟨request, hreturned.mono hgrows⟩

theorem Replied.mono (hgrows : Grows s s') {m : ParsedMessage} (h : s.Replied st m) :
    s'.Replied st m := by
  obtain ⟨request, result, hm, n, bytes, hn, hanswer⟩ := h
  exact ⟨request, result, hm, n, bytes, List.getElem?_of_prefix hgrows.processed hn, hanswer⟩

/-- The parser of the server takes a message out of the stream as what it says alone, and this has
been asked for. -/
theorem Serialized.parses {bytes : Bytes} (h : Serialized st s bytes) :
    ∃ m, parseBytes st.codec.lib bytes = some m ∧
      (∀ invocation, Invocation.ofMessage m = some invocation → s.Requested invocation) ∧
      st.serverParser.TakesAs bytes m := by
  cases h with
  | request hsent hrequest hbytes =>
    have hparse := st.codec.lawful.parseMessage_request
    refine ⟨_, st.codec.lawful.parseBytes_serialize hbytes (hparse _ _ _) (Nat.le_refl 4),
      fun invocation hof => ?_, st.codec.takesAs_request st.serverBuffer hbytes⟩
    cases hof
    exact .request hsent hrequest
  | notification hasked hbytes =>
    have hparse := st.codec.lawful.parseMessage_notification
    refine ⟨_, st.codec.lawful.parseBytes_serialize hbytes (hparse _ _) (Nat.le_succ 3),
      fun invocation hof => ?_, st.codec.takesAs_notification st.serverBuffer hbytes⟩
    cases hof
    exact .notification hasked

theorem Serialized.takesAs {bytes : Bytes} (h : Serialized st s bytes) :
    ∃ m, (∀ invocation, Invocation.ofMessage m = some invocation → s.Requested invocation) ∧
      st.serverParser.TakesAs bytes m := by
  obtain ⟨m, -, htaken⟩ := h.parses
  exact ⟨m, htaken⟩

/-- The parser of the client takes what the processor has returned for a request as the answer to
this request. -/
theorem ReturnedFor.parses (hmethods : ∀ n, (st.methods n).IsFunctional st.codec.lib)
    {request : ParsedRequest} {bytes : Bytes} (h : s.ReturnedFor st request bytes) :
    ∃ result, parseBytes st.codec.lib bytes = some (.response { id := request.id, result }) ∧
      s.Answered st request result ∧
      st.clientParser.TakesAs bytes (.response { id := request.id, result }) := by
  obtain ⟨n, hn, hcall⟩ := h
  obtain ⟨error, result, hbytes⟩ := (hmethods n).serialized st.codec.lawful hcall
  have hparse := st.codec.lawful.parseMessage_response request.id error result
  have hparsed := st.codec.lawful.parseBytes_serialize hbytes hparse (Nat.le_refl 4)
  exact ⟨_, hparsed, ⟨n, bytes, hn, hcall, hparsed⟩,
    st.codec.takesAs_response st.clientBuffer hbytes⟩

theorem Returned.takesAs (hmethods : ∀ n, (st.methods n).IsFunctional st.codec.lib) {bytes : Bytes}
    (h : s.Returned st bytes) : ∃ m, s.Replied st m ∧ st.clientParser.TakesAs bytes m := by
  obtain ⟨request, hreturned⟩ := h
  obtain ⟨result, -, hanswered, htakes⟩ := hreturned.parses hmethods
  exact ⟨_, ⟨request, result, rfl, hanswered⟩, htakes⟩

/-! ## One connection -/

end Session

open Session

/-- What a link carries has been asked for or been returned, at both ends and in between; `k` is the
connection of the client. -/
structure Link.Traces (st : Setting) (s : Session)
    (k : Connection (Clients.Entry Bytes)) (link : Link) : Prop where
  holds : link.server.HoldsOnly s.Requested (Returned st s)
  accounts : link.server.Accounts
  sendsOne : link.server.SendsOne
  toServer : link.toServer.Carries (Serialized st s)
  toClient : link.toClient.Carries (Returned st s)
  writesToServer : link.toServer.writes.length = k.writes.length
  writesToClient : link.toClient.writes.length = link.server.connection.writes.length
  readServer : Connection.Reads st.serverParser link.server.connection link.server.received
    link.toServer.read
  readClient : Connection.Reads st.clientParser k link.received link.toClient.read
  arrived : link.arrived ⊆ link.received

variable {st : Setting} {s s' : Session}
  {k k' : Connection (Clients.Entry Bytes)} {link : Link}

theorem Link.traces_init (st : Setting) (s : Session) :
    Link.Traces st s (Clients.startedConnection (Clients.Entry Bytes)) {} where
  holds := ServerConnection.holdsOnly_init _ _
  accounts := ServerConnection.accounts_init
  sendsOne := ServerConnection.sendsOne_init
  toServer := ByteStream.carries_init _
  toClient := ByteStream.carries_init _
  writesToServer := rfl
  writesToClient := rfl
  readServer := Connection.reads_nil (st.codec.parser_incremental _) rfl (Nat.le_refl 1)
  readClient := Connection.reads_nil (st.codec.parser_incremental _) rfl (Nat.le_refl 1)
  arrived := List.Subset.refl []

theorem Link.Traces.mono (h : link.Traces st s k) (hgrows : Grows s s') :
    link.Traces st s' k where
  holds := h.holds.mono (fun _ => .mono hgrows) (fun _ => .mono hgrows)
  accounts := h.accounts
  sendsOne := h.sendsOne
  toServer := h.toServer.mono fun _ => .mono hgrows
  toClient := h.toClient.mono fun _ => .mono hgrows
  writesToServer := h.writesToServer
  writesToClient := h.writesToClient
  readServer := h.readServer
  readClient := h.readClient
  arrived := h.arrived

/-- The connection of the client gets a task that reads nothing. -/
theorem Link.Traces.post (h : link.Traces st s k) {task : Transport.Task _}
    (htask : task.isReadNext = false) : link.Traces st s (k.post task) := by
  refine { h with readClient := h.readClient.unread rfl ?_, writesToServer := h.writesToServer }
  rw [Connection.pendingReads_post, htask]
  exact Nat.le_refl _

/-- The stream to an end of the connection transfers some bytes of a write. -/
theorem Link.Traces.transferToServer (h : link.Traces st s k) {i n : Nat}
    {toServer : ByteStream} (htransfer : link.toServer.transfer i n = some toServer) :
    { link with toServer }.Traces st s k := by
  have hcarries := h.toServer.transfer htransfer
  obtain ⟨bytes, -, -, -, rfl⟩ := ByteStream.transfer_eq_some htransfer
  exact { h with toServer := hcarries, writesToServer := List.length_set.trans h.writesToServer }

theorem Link.Traces.transferToClient (h : link.Traces st s k) {i n : Nat}
    {toClient : ByteStream} (htransfer : link.toClient.transfer i n = some toClient) :
    { link with toClient }.Traces st s k := by
  have hcarries := h.toClient.transfer htransfer
  obtain ⟨bytes, -, -, -, rfl⟩ := ByteStream.transfer_eq_some htransfer
  exact { h with toClient := hcarries, writesToClient := List.length_set.trans h.writesToClient }

section Network

variable {μ : Type} {p : MessageParser ParsedMessage} {c : Connection μ} {e : Connection.Event}
  {r : Handled ParsedMessage μ} {P : Bytes → Prop} {bytes : μ → Bytes} {out out' : ByteStream}

/-- A handler that writes, on a connection that writes one message at a time. -/
theorem carries_sends (hr : Connection.Handles p c e r) (h : out.Carries P)
    (hlength : out.writes.length = c.writes.length)
    (hmessage : ∀ m, .asyncSendInThread m ∈ c.tasks → P (bytes m))
    (halone : ∀ i calls m, e = .task i calls → c.tasks[i]? = some (.asyncSendInThread m) →
      c.writes = [])
    (hsends : sends bytes c out e = some out') :
    out'.Carries P ∧ out'.writes.length = r.connection.writes.length := by
  have unchanged (hsame : sends bytes c out e = some out)
      (hwrites : r.connection.writes = c.writes) :
      out'.Carries P ∧ out'.writes.length = r.connection.writes.length := by
    rw [hsame, Option.some.injEq] at hsends
    rw [← hsends, hwrites]
    exact ⟨h, hlength⟩
  have ended {i : Nat} {error : Option ErrorCode} (he : e = .write i error)
      (hwrites : r.connection.writes = c.writes.eraseIdx i) :
      out'.Carries P ∧ out'.writes.length = r.connection.writes.length := by
    subst he
    have hends : out.endWrite i error.isSome = some out' := hsends
    refine ⟨h.endWrite hends, ?_⟩
    obtain ⟨bytes, -, -, rfl⟩ := ByteStream.endWrite_eq_some hends
    rw [hwrites, List.length_eraseIdx, List.length_eraseIdx, hlength]
  cases hr with
  | readNext htask => exact unchanged (by simp only [sends, htask]) rfl
  | @send i calls message htask =>
    simp only [sends, htask, Option.some.injEq] at hsends
    have hnone := halone i calls message rfl htask
    rw [hnone] at hlength
    subst hsends
    refine ⟨h.startWrite (List.eq_nil_of_length_eq_zero hlength)
      (hmessage message (List.mem_of_getElem? htask)), ?_⟩
    show (out.writes ++ [_]).length = (c.writes ++ [_]).length
    rw [List.length_append, List.length_append, hlength, hnone]
    rfl
  | close htask _ hcloses =>
    refine unchanged (by simp only [sends, htask]) ?_
    cases hcloses <;> rfl
  | readInvalid _ _ _ _ hcloses => exact unchanged rfl (by cases hcloses <;> rfl)
  | readAborted | readClosedByPeer | readFailed | readBytes => exact unchanged rfl rfl
  | writeAborted | writeClosedByPeer | writeFailed | written => exact ended rfl rfl

/-- A handler that writes leaves alone what the other end has read. -/
theorem read_sends (hsends : sends bytes c out e = some out') : out'.read = out.read := by
  cases e with
  | task i calls =>
    simp only [sends] at hsends
    split at hsends <;> cases hsends <;> rfl
  | read =>
    cases hsends
    rfl
  | write i error =>
    obtain ⟨bytes, -, -, rfl⟩ := ByteStream.endWrite_eq_some hsends
    rfl

theorem carries_receives {input input' : ByteStream} (h : input.Carries P)
    (hreceives : receives input e = some input') :
    input'.Carries P ∧ input'.read = input.read ++ e.readBytes ∧ input'.writes = input.writes := by
  have unchanged (hsame : receives input e = some input) (hnone : e.readBytes = []) :
      input'.Carries P ∧ input'.read = input.read ++ e.readBytes ∧
        input'.writes = input.writes := by
    rw [hsame, Option.some.injEq] at hreceives
    rw [← hreceives, hnone, List.append_nil]
    exact ⟨h, rfl, rfl⟩
  cases e with
  | read i error bytes calls =>
    cases error with
    | none =>
      have htaken := h.takeBytes hreceives
      obtain ⟨rest, -, rfl⟩ := ByteStream.takeBytes_eq_some hreceives
      exact ⟨htaken, rfl, rfl⟩
    | some error => exact unchanged rfl rfl
  | task => exact unchanged rfl rfl
  | write => exact unchanged rfl rfl

/-- What the reader has taken out of a stream of messages with `P`. -/
theorem forall_drain (hp : p.Incremental) {Q : ParsedMessage → Prop} (h : out.Carries P)
    (htakes : ∀ bytes, P bytes → ∃ m, Q m ∧ p.TakesAs bytes m) :
    ∀ m ∈ (p.drain out.read).messages, Q m := by
  obtain ⟨ms, hms, hR⟩ := MessageParser.exists_forall₂_takesAs (R := fun _ m => Q m)
    fun bytes hmem => htakes bytes (h.messages bytes hmem)
  have hQ : ∀ m ∈ ms, Q m :=
    ((List.forall₂_and_left ms _).mp (hR.flip.imp fun _ _ hm => And.intro hm trivial)).1
  have hdrained := (MessageParser.drain_of_prefix hp hms h.read_prefix).2
  exact fun m hm => hQ m (hdrained.subset hm)

end Network

/-- A step of the server connection outside the handlers of its connection. -/
theorem Link.Traces.serverStep (h : link.Traces st s k) {a : ServerAction Bytes}
    {server : ServerConnection Bytes} (hown : ∀ e, a ≠ .context e)
    (hanswer : ∀ (i : Nat) (r : Servers.Routine Bytes) request response,
      a = .answer i (some response) → link.server.routines[i]? = some r →
      r.pc = .call request → Returned st s response)
    (hsteps : ServerConnection.Steps st.serverParser link.server a server) :
    { link with server }.Traces st s k := by
  obtain ⟨hcompleted, hbytes⟩ := ServerConnection.completed_eq_nil
    (p := st.serverParser) (s := link.server) hown
  have hreads := ServerConnection.reads_step (st.codec.parser_incremental _) h.accounts
    h.readServer hsteps
  rw [hbytes, List.append_nil] at hreads
  refine { h with
    holds := ?_
    accounts := ?_
    sendsOne := ?_
    writesToClient := ?_
    readServer := ?_ }
  · exact h.holds.step (by rw [hcompleted]; nofun) hanswer hsteps
  · exact ServerConnection.accounts_step h.accounts hsteps
  · exact h.sendsOne.step hsteps
  · exact h.writesToClient.trans (congrArg List.length (hsteps.writes_eq hown)).symm
  · exact hreads

/-- A handler of the server's connection: it has read what the client has written. -/
theorem Link.Traces.serverContext (h : link.Traces st s k) {e : Connection.Event}
    {server : ServerConnection Bytes} {toServer toClient : ByteStream}
    (hsends : sends id link.server.connection link.toClient e = some toClient)
    (hreceives : receives link.toServer e = some toServer)
    (hsteps : ServerConnection.Steps st.serverParser link.server (.context e) server) :
    { link with server, toServer, toClient }.Traces st s k := by
  have hp := st.codec.parser_incremental st.serverBuffer
  have hreads := ServerConnection.reads_step hp h.accounts h.readServer hsteps
  obtain ⟨hcarries, hread, hwrites⟩ := carries_receives h.toServer hreceives
  -- every message that has been received stands in the stream
  have hall := forall_drain hp hcarries fun _ => Serialized.takesAs
  rw [hread] at hall
  have hreceived : ∀ m ∈ Servers.completed st.serverParser link.server (.context e),
      ∀ invocation, Invocation.ofMessage m = some invocation →
        s.Requested invocation := by
    intro m hm
    apply hall m
    have hsame := hreads.received
    rw [ServerConnection.received_eq_of_steps hsteps] at hsame
    exact hsame ▸ List.mem_append_right _ hm
  have hsent : toClient.Carries (Returned st s) ∧
      toClient.writes.length = server.connection.writes.length := by
    have hone := h.sendsOne
    cases hsteps with
    | context hr hdelivers =>
      have hout := carries_sends hr h.toClient h.writesToClient h.holds.tasks
        (fun i calls m _ htask => hone.writes_eq_nil htask) hsends
      cases hdelivers <;> exact hout
    | processed _ _ _ ha => rcases ha with ha | ⟨_, ha⟩ <;> cases ha
  refine { h with
    holds := h.holds.step hreceived (fun _ _ _ _ heq => by cases heq) hsteps
    accounts := ServerConnection.accounts_step h.accounts hsteps
    sendsOne := h.sendsOne.step hsteps
    toServer := hcarries
    toClient := hsent.1
    writesToServer := (congrArg List.length hwrites).trans h.writesToServer
    writesToClient := hsent.2
    readServer := ?_
    readClient := ?_ }
  · show Connection.Reads _ _ _ toServer.read
    rw [hread]
    exact hreads
  · show Connection.Reads _ _ _ toClient.read
    rw [read_sends hsends]
    exact h.readClient

/-- Every message that the client has received answers a request. -/
theorem Link.Traces.replied (h : link.Traces st s k)
    (hmethods : ∀ n, (st.methods n).IsFunctional st.codec.lib) :
    ∀ m ∈ link.received, Replied st s m := by
  have hall := forall_drain (st.codec.parser_incremental st.clientBuffer) h.toClient
    fun _ => Returned.takesAs hmethods
  rw [h.readClient.received]
  exact hall

/-- A handler of the client's connection: it has read what the server has written. -/
theorem Link.Traces.clientContext (h : link.Traces st s k) {e : Connection.Event}
    {toServer toClient : ByteStream} {r : Handled ParsedMessage (Clients.Entry Bytes)}
    (hsends : sends Clients.Entry.message k link.toServer e = some toServer)
    (hreceives : receives link.toClient e = some toClient)
    (hmessage : ∀ entry, .asyncSendInThread entry ∈ k.tasks →
      Serialized st s entry.message)
    (halone : ∀ i calls entry, e = .task i calls → k.tasks[i]? = some (.asyncSendInThread entry) →
      k.writes = [])
    (hr : Connection.Handles st.clientParser k e r) :
    { link with
      toServer
      toClient
      arrived := e.received st.clientParser k
      received := link.received ++ e.received st.clientParser k }.Traces st s
        r.connection := by
  have hp := st.codec.parser_incremental st.clientBuffer
  have hreads := h.readClient.handles hp hr
  obtain ⟨hcarries, hread, hwrites⟩ := carries_receives h.toClient hreceives
  obtain ⟨hsent, hlength⟩ := carries_sends hr h.toServer h.writesToServer hmessage halone hsends
  refine { h with
    toServer := hsent
    toClient := hcarries
    writesToServer := hlength
    writesToClient := (congrArg List.length hwrites).trans h.writesToClient
    readServer := ?_
    readClient := ?_
    arrived := List.subset_append_right _ _ }
  · show Connection.Reads _ _ _ toServer.read
    rw [read_sends hsends]
    exact h.readServer
  · show Connection.Reads _ _ _ toClient.read
    rw [hread]
    exact hreads

end MsgpackRpc.Rpc
