import MsgpackRpc.Clients.LiveClient
import MsgpackRpc.Rpc.AtMostOnce
import MsgpackRpc.Servers.LiveServer

/-!
# No call waits in vain

While the connection of a client stays up at both ends, a call whose request has been given to the
sender is completed, or somebody still has a step to take: a routine, the processor, a handler, or
the network with the bytes that are on their way.
-/

namespace MsgpackRpc.Rpc

open Messages Methods
open MsgpackRpc.Transport
open Clients (CallList CallListAction Client ClientAction Entry MessageID)
open Servers (Invocation ServerAction ServerConnection)

/-- A write of a server connection fails. -/
def Action.isServerWriteFailure : Action → Bool
  | .server _ a => a.isWriteFailure
  | _ => false

/-- The steps that need no caller and no timer of a call and are no failure. -/
def Action.succeeds : Action → Bool
  | .client a => a.succeeds
  | .receive _ | .process _ _ => true
  | .server _ (.context e) => e.succeeds
  | .server _ a => a.isOwn
  | .toServer _ _ n | .toClient _ _ n => 0 < n
  | _ => false

/-- What a run keeps of a link whose ends stay up. -/
structure Link.Live (st : Setting) (s : Session) (link : Link) : Prop where
  server : link.server.Live link.toClient.sent
  executes : link.server.Executes (s.ReturnedFor st)
  toServer : link.toServer.broken = false
  toClient : link.toClient.broken = false

/-- A response that has arrived waits for its callback, or the call of its ID is not listed. -/
def Link.Handled (s : Session) (link : Link) : Prop :=
  ∀ response, .response response ∈ link.received →
    .response response ∈ link.arrived ∨ s.calls.promiseOf response.id = none

namespace Session

/-- A step in which the connection stays up at both ends. -/
def StaysLive (s : Session) (a : Action) (s' : Session) : Prop :=
  s.KeepsUp a s' ∧ (∀ link ∈ s'.links, link.server.connection.state = .processing) ∧
    a.isServerWriteFailure = false

instance (s : Session) (a : Action) (s' : Session) : Decidable (s.StaysLive a s') :=
  inferInstanceAs (Decidable (_ ∧ _ ∧ _))

/-- Nobody has stopped the client, and no exception has left a context of either side. -/
structure IsRunning (s : Session) : Prop where
  notStopped : s.client.isStopped = false
  thrown : s.client.thrown = none
  interrupted : ∀ link ∈ s.links, link.server.interrupted = false

instance (s : Session) : Decidable s.IsRunning :=
  decidable_of_iff (s.client.isStopped = false ∧ s.client.thrown = none ∧
      ∀ link ∈ s.links, link.server.interrupted = false)
    ⟨fun ⟨hstopped, hthrown, hinterrupted⟩ => ⟨hstopped, hthrown, hinterrupted⟩,
      fun ⟨hstopped, hthrown, hinterrupted⟩ => ⟨hstopped, hthrown, hinterrupted⟩⟩

/-- The future of the `i`-th call is set. -/
def IsSet (s : Session) (i : Nat) : Prop :=
  ∃ request promise f, s.calls.creates[i]? = some (.returned request promise) ∧
    s.calls.futures[promise]? = some f ∧ f.isSet = true

/-- What the messages given to the sender ask the processor for. -/
def askedFor (st : Setting) (s : Session) : List Invocation :=
  (s.sent.filterMap s.requestOf).map .request ++
    (s.notified.filter fun asked => (st.serializeNotification asked).isSome).map fun asked =>
      .notification ⟨asked.methodName, ⟨asked.parameters⟩⟩

end Session

/-! ## What stays live -/

theorem broken_sends {μ : Type} {bytes : μ → Bytes} {c : Connection μ} {e : Connection.Event}
    {out out' : ByteStream} (h : sends bytes c out e = some out')
    (hok : ∀ i error, e ≠ .write i (some error)) : out'.broken = out.broken := by
  cases e with
  | task i calls =>
    simp only [sends] at h
    split at h <;> cases h <;> rfl
  | read =>
    cases h
    rfl
  | write i error =>
    cases error with
    | some error => exact absurd rfl (hok i error)
    | none =>
      obtain ⟨rest, -, -, rfl⟩ := ByteStream.endWrite_eq_some h
      exact Bool.or_false _

theorem broken_receives {input input' : ByteStream} {e : Connection.Event}
    (h : receives input e = some input') : input'.broken = input.broken := by
  unfold receives at h
  split at h
  · obtain ⟨rest, -, rfl⟩ := ByteStream.takeBytes_eq_some h
    rfl
  · cases h
    rfl

section Links

variable {st : Setting} {s s' : Session} {link : Link}

theorem Link.live_init (st : Setting) (s : Session) : Link.Live st s {} where
  server := ServerConnection.live_init
  executes := nofun
  toServer := rfl
  toClient := rfl

theorem Link.Live.mono (h : link.Live st s) (hgrows : Session.Grows s s') : link.Live st s' :=
  { h with executes := h.executes.mono fun _ _ => .mono hgrows }

/-- A step of the server connection outside the handlers of its connection. -/
theorem Link.Live.serverStep (h : link.Live st s) {a : ServerAction Bytes}
    {server : ServerConnection Bytes} (hown : ∀ e, a ≠ .context e)
    (hlive : ServerConnection.staysLive a server = true)
    (hanswer : ∀ (i : Nat) (r : Servers.Routine Bytes) request response,
      a = .answer i (some response) → link.server.routines[i]? = some r →
      r.pc = .call request → s.ReturnedFor st request response)
    (hstep : link.server.step st.serverParser a = some server) :
    Link.Live st s { link with server } := by
  have hserver := h.server.step hlive hstep
  have hnone : link.server.starting a = none := by
    cases a with
    | context e => exact absurd rfl (hown e)
    | _ => rfl
  rw [hnone, Option.toList_none, List.append_nil] at hserver
  exact { h with server := hserver, executes := h.executes.step hanswer hstep }

theorem Link.Live.serverContext (h : link.Live st s) {e : Connection.Event}
    {server : ServerConnection Bytes} {toServer toClient : ByteStream}
    (hlive : ServerConnection.staysLive (.context e : ServerAction Bytes) server = true)
    (hsends : sends id link.server.connection link.toClient e = some toClient)
    (hreceives : receives link.toServer e = some toServer)
    (hstep : link.server.step st.serverParser (.context e) = some server) :
    Link.Live st s { link with server, toServer, toClient } := by
  have hok : ∀ i error, e ≠ .write i (some error) := by
    rintro i error rfl
    simp [ServerConnection.staysLive, ServerAction.isWriteFailure] at hlive
  refine ⟨?_, h.executes.step (fun _ _ _ _ ha => by cases ha) hstep, ?_, ?_⟩
  · have hserver := h.server.step hlive hstep
    have hsent := sent_sends hsends
    rw [Option.map_id, id_eq] at hsent
    show server.Live toClient.sent
    rw [hsent]
    exact hserver
  · exact (broken_receives hreceives).trans h.toServer
  · exact (broken_sends hsends hok).trans h.toClient

end Links

theorem Link.Traces.exists_parsed_toClient {st : Setting} {s : Session}
    {k : Connection (Entry Bytes)} {link : Link} (h : link.Traces st s k)
    (hmethods : ∀ n, (st.methods n).IsFunctional st.codec.lib) :
    ∃ ms, List.Forall₂ st.clientParser.TakesAs link.toClient.sent ms ∧
      link.toClient.sent.map (parseBytes st.codec.lib) = ms.map some := by
  refine exists_parsed fun bytes hmem => ?_
  obtain ⟨request, hreturned⟩ := h.toClient.messages bytes hmem
  obtain ⟨result, hparse, -, htakes⟩ := hreturned.parses hmethods
  exact ⟨_, hparse, htakes⟩

namespace Session

/-- What a run keeps whose connection stays up at both ends. -/
structure Lives (st : Setting) (s : Session) : Prop where
  client : s.client.Live
  links : ∀ link ∈ s.links, link.Live st s
  handled : s.calls.generated ≤ 2 ^ 32 → ∀ link ∈ s.links, link.Handled s

variable {st : Setting} {first : MessageID} {s s' : Session}

theorem Lives.links_set (h : s.Lives st) (hgrows : Grows s s') {c : Nat} {link' : Link}
    (hlinks : s'.links = s.links.set c link') (hlive : link'.Live st s') :
    ∀ link ∈ s'.links, link.Live st s' := by
  intro link hmem
  rw [hlinks] at hmem
  rcases List.mem_or_eq_of_mem_set hmem with hmem | rfl
  · exact (h.links link hmem).mono hgrows
  · exact hlive

theorem Lives.links_step {a : Action} (h : s.Lives st) (hlive : s.StaysLive a s')
    (hsteps : Steps st s a s') : ∀ link ∈ s'.links, link.Live st s' := by
  have hgrows := hsteps.grows
  obtain ⟨hup, hstates, hwrite⟩ := hlive
  have before {c : Nat} {link : Link} (hlink : s.links[c]? = some link) : link.Live st s' :=
    (h.links link (List.mem_of_getElem? hlink)).mono hgrows
  -- the server connection of the link that is set
  have stays {c : Nat} {link link' : Link} {b : ServerAction Bytes}
      (hlink : s.links[c]? = some link) (hlinks : s'.links = s.links.set c link')
      (hb : b.isWriteFailure = false) : ServerConnection.staysLive b link'.server = true := by
    have hstate := hstates link' (by
      rw [hlinks]
      exact List.mem_set (List.getElem?_eq_some_iff.mp hlink).1 link')
    rw [ServerConnection.staysLive, hstate, hb]
    rfl
  cases hsteps with
  | asyncCall | calls | sent | notified | notifyThrown =>
    exact fun link hmem => (h.links link hmem).mono hgrows
  | client =>
    intro link hmem
    rcases List.mem_append.mp hmem with hmem | hmem
    · exact (h.links link hmem).mono hgrows
    · rw [List.eq_of_mem_replicate hmem]
      exact Link.live_init st _
  | @clientContext c e k link toServer toClient client hk hlink harrived hsends hreceives =>
    refine h.links_set hgrows rfl { before hlink with server := ?_, toServer := ?_, toClient := ?_ }
    · show link.server.Live toClient.sent
      rw [sent_receives hreceives]
      exact (before hlink).server
    · refine (broken_sends hsends ?_).trans (before hlink).toServer
      rintro i error rfl
      cases (hup _ rfl).1.2
    · exact (broken_receives hreceives).trans (before hlink).toClient
  | received hlink | ignored hlink => exact h.links_set hgrows rfl { before hlink with }
  | serverContext hlink hsends hreceives hserver =>
    refine h.links_set hgrows rfl ((before hlink).serverContext ?_ hsends hreceives hserver)
    exact stays hlink rfl hwrite
  | server hlink hown hserver =>
    refine h.links_set hgrows rfl ((before hlink).serverStep ?_ (stays hlink rfl hwrite) ?_ hserver)
    · rintro e rfl
      cases hown
    · rintro i r request response rfl
      cases hown
  | @called c i link r request server hlink hr hpc hserver =>
    refine h.links_set hgrows rfl ((before hlink).serverStep (fun _ he => by cases he)
      (stays hlink rfl rfl) (fun j r' request' response ha hr' hpc' => ?_) hserver)
    rw [ServerAction.answer.injEq] at ha
    obtain ⟨rfl, hcalled⟩ := ha
    obtain rfl : r = r' := Option.some.inj (hr.symm.trans hr')
    obtain rfl : request = request' := by
      rw [hpc] at hpc'
      cases hpc'
      rfl
    exact returnedFor_call hcalled
  | notifiedMethod hlink hr hpc hserver =>
    exact h.links_set hgrows rfl ((before hlink).serverStep (fun _ he => by cases he)
      (stays hlink rfl rfl) (fun _ _ _ _ ha => by cases ha) hserver)
  | @toServer c i n link toServer hlink htransfer =>
    obtain ⟨bytes, -, -, -, rfl⟩ := ByteStream.transfer_eq_some htransfer
    exact h.links_set hgrows rfl { before hlink with }
  | @toClient c i n link toClient hlink htransfer =>
    obtain ⟨bytes, -, -, -, rfl⟩ := ByteStream.transfer_eq_some htransfer
    exact h.links_set hgrows rfl { before hlink with }

/-! ## Responses are handled -/

theorem WireTraced.sent_of_replied (h : s.WireTraced st) {response : ParsedResponse}
    (hreplied : s.Replied st (.response response)) :
    ∃ (i : Nat) (create : Clients.Request) (promise : Nat),
      s.calls.creates[i]? = some (.returned create promise) ∧ create.id = response.id := by
  obtain ⟨request, result, hm, n, bytes, hn, -⟩ := hreplied
  cases hm
  have hrequested := h.processed _ (List.mem_of_getElem? hn)
  cases hrequested with
  | request hsent hrequest =>
    obtain ⟨asked, create, promise, -, hcreate, rfl⟩ := requestOf_eq_some.mp hrequest
    exact ⟨_, create, promise, hcreate, rfl⟩

/-- The list of calls makes a step: no call is emplaced under the ID of a response that has
arrived. -/
theorem Lives.handled_calls (hmethods : ∀ n, (st.methods n).IsFunctional st.codec.lib)
    (h : s.Lives st) (hconnected : s.Connected st first) {a : CallListAction CallResult}
    (hcalls : CallList.Steps s.calls a s'.calls) (hids : s'.calls.generated ≤ 2 ^ 32)
    {link : Link} (hmem : link ∈ s.links) : link.Handled s' := by
  have hids' := hcalls.generated_le.trans hids
  intro response hresponse
  refine (h.handled hids' link hmem response hresponse).imp_right fun hnone => ?_
  refine (hcalls.unlisted hnone).resolve_right ?_
  rintro ⟨i, request, hi, hid⟩
  obtain ⟨k, htraces⟩ := hconnected.wire.traces hmem
  obtain ⟨j, create, promise, hj, hid'⟩ := hconnected.wire.sent_of_replied
    (htraces.replied hmethods _ hresponse)
  obtain rfl : i = j := hconnected.calls.eq_of_id hids' hi hj rfl rfl (hid.trans hid'.symm)
  rw [hi] at hj
  cases hj

theorem Lives.handled_set (h : s.Lives st) (hcalls : s'.calls = s.calls) {c : Nat} {link' : Link}
    (hlinks : s'.links = s.links.set c link') (hids : s.calls.generated ≤ 2 ^ 32)
    (hhandled : link'.Handled s) : ∀ link ∈ s'.links, link.Handled s' := by
  intro link hmem
  rw [hlinks] at hmem
  rw [Link.Handled, hcalls]
  rcases List.mem_or_eq_of_mem_set hmem with hmem | rfl
  · exact h.handled hids link hmem
  · exact hhandled

theorem Lives.handled_step (hmethods : ∀ n, (st.methods n).IsFunctional st.codec.lib) {a : Action}
    (h : s.Lives st) (hconnected : s.Connected st first) (hsteps : Steps st s a s')
    (hids : s'.calls.generated ≤ 2 ^ 32) : ∀ link ∈ s'.links, link.Handled s' := by
  have before {c : Nat} {link : Link} (hlink : s.links[c]? = some link)
      (hids : s.calls.generated ≤ 2 ^ 32) : link.Handled s :=
    h.handled hids link (List.mem_of_getElem? hlink)
  cases hsteps with
  | asyncCall hcalls | calls _ hcalls =>
    exact fun link hmem => h.handled_calls hmethods hconnected (CallList.steps_of_step hcalls) hids
      hmem
  | sent | notified | notifyThrown => exact h.handled hids
  | client =>
    intro link hmem
    rcases List.mem_append.mp hmem with hmem | hmem
    · exact h.handled hids link hmem
    · rw [List.eq_of_mem_replicate hmem]
      exact nofun
  | @clientContext c e k link toServer toClient client hk hlink harrived =>
    -- the handler before has left nothing that waits
    refine h.handled_set rfl rfl hids fun response hresponse => ?_
    rcases List.mem_append.mp hresponse with hold | hnew
    · refine .inr ((before hlink hids response hold).resolve_left ?_)
      rw [harrived]
      exact List.not_mem_nil
    · exact .inl hnew
  | @received c link response arrived calls hlink harrived hcalls =>
    have hsteps := CallList.steps_of_step hcalls
    have hafter {link : Link} (hmem : link ∈ s.links) : link.Handled { s with calls } :=
      h.handled_calls hmethods hconnected hsteps hids hmem
    intro link' hmem
    rcases List.mem_or_eq_of_mem_set hmem with hmem | rfl
    · exact hafter hmem
    · intro other hother
      rcases hafter (List.mem_of_getElem? hlink) other hother with hwaits | hnone
      · rw [harrived] at hwaits
        rcases List.mem_cons.mp hwaits with heq | hwaits
        · cases heq
          exact .inr hsteps.handled
        · exact .inl hwaits
      · exact .inr hnone
  | @ignored c link m arrived hlink harrived hm =>
    refine h.handled_set rfl rfl hids fun response hresponse => ?_
    refine (before hlink hids response hresponse).imp_left fun hwaits => ?_
    rw [harrived] at hwaits
    exact (List.mem_cons.mp hwaits).resolve_left fun heq => hm response heq.symm
  | serverContext hlink | server hlink | called hlink | notifiedMethod hlink | toServer hlink
  | toClient hlink =>
    have hbefore := before hlink hids
    exact h.handled_set rfl rfl hids fun response hresponse => hbefore response hresponse

theorem Lives.step (hmethods : ∀ n, (st.methods n).IsFunctional st.codec.lib) {a : Action}
    (h : s.Lives st) (hconnected : s.Connected st first) (hconnected' : s'.Connected st first)
    (hlive : s.StaysLive a s') (hsteps : Steps st s a s') : s'.Lives st where
  client := by
    have hserving := hconnected.serves.serving
    have hserving' := hconnected'.serves.serving
    cases hsteps with
    | sent _ _ _ _ hclient | notified _ hclient | clientContext _ _ _ _ _ hclient
    | client _ hclient =>
      exact h.client.step hserving hserving' (Client.steps_of_step hclient)
    | _ => exact h.client
  links := h.links_step hlive hsteps
  handled hids := h.handled_step hmethods hconnected hsteps hids

/-! ## Responses in order -/

end Session

namespace Session

/-! ## When nobody has a step to take -/

/-- Nothing is left to do, at both ends of the one connection and in between. -/
structure Settled (s : Session) (k : Connection (Entry Bytes)) (link : Link) : Prop where
  connections : s.client.connections = [k]
  links : s.links = [link]
  client : s.client.Rests
  connection : s.client.connection ≠ none
  server : link.server.Rests
  arrived : link.arrived = []
  atClient : k.tasks = [] ∧ k.writes = [] ∧ link.toClient.unread = []
  atServer : link.server.connection.tasks = [] ∧ link.server.connection.writes = [] ∧
    link.toServer.unread = []

variable {st : Setting} {first : MessageID} {s : Session} {k : Connection (Entry Bytes)}
  {link : Link}

/-- All that has been pushed has been received by the server. -/
theorem Settled.received (h : s.Settled k link) (hconnected : s.Connected st first)
    (hlives : s.Lives st) : link.server.received.map some = s.pushed st := by
  have hk : s.client.connections[0]? = some k := by rw [h.connections, List.getElem?_cons_zero]
  have hlink : s.links[0]? = some link := by rw [h.links, List.getElem?_cons_zero]
  have htraces := hconnected.wire.links 0 k link hk hlink
  obtain ⟨hhanded, hpending⟩ := h.client.drained hlives.client hconnected.serves.serving
    h.connection h.connections h.atClient.1 h.atClient.2.1
  obtain ⟨begun, hbegun, hwritten⟩ := hconnected.serves.begun
  rw [Client.HasBegun, hpending] at hbegun
  have hsent : link.toServer.sent = s.client.pushed.map Entry.message := by
    rw [written, h.links, hbegun.begun_eq, hhanded, List.map_singleton, List.flatten_singleton]
      at hwritten
    exact hwritten
  have hnoWrites : link.toServer.writes = [] := by
    refine List.eq_nil_of_length_eq_zero ?_
    rw [htraces.writesToServer, h.atClient.2.1, List.length_nil]
  have hread := htraces.toServer.read_eq (hlives.links link (List.mem_of_getElem? hlink)).toServer
    hnoWrites h.atServer.2.2
  obtain ⟨ms, htakes, hparsed⟩ := htraces.exists_parsed_toServer
  have hdrained := MessageParser.drain_flatten (st.codec.parser_incremental st.serverBuffer) htakes
  have hreceived := htraces.readServer.received
  rw [hread] at hreceived
  rw [hreceived, pushed_eq, ← hsent, hparsed]
  exact congrArg (fun drained => drained.messages.map some) hdrained

/-- Every request that has been given to the sender has been answered. -/
theorem Settled.answered (h : s.Settled k link) (hconnected : s.Connected st first)
    (hlives : s.Lives st) (hgives : s.GivesOnce st) (hrunning : s.IsRunning) {i : Nat}
    (hi : i ∈ s.sent) : ∃ request response, s.requestOf i = some request ∧
      response ∈ link.toClient.sent ∧ s.ReturnedFor st request response := by
  have hmem : link ∈ s.links := by rw [h.links]; exact List.mem_singleton_self link
  obtain ⟨k', htraces⟩ := hconnected.wire.traces hmem
  obtain ⟨request, bytes, hrequest, hbytes⟩ := hgives.returned i hi
  refine ⟨request, ?_⟩
  -- it has been pushed
  have hgiven : bytes ∈ s.given st := by
    refine List.mem_append_left _ (List.mem_filterMap.mpr ⟨i, hi, ?_⟩)
    exact requestBytes_eq_some hrequest hbytes
  have hpushed : bytes ∈ s.client.pushed.map Entry.message := by
    have hoffered := hgives.offered
    rw [Client.offered, h.client.sum_eq_zero _ rfl, add_zero, Multiset.coe_eq_coe] at hoffered
    exact hoffered.mem_iff.mpr hgiven
  -- so it has been received and dispatched
  have hparse := st.codec.lawful.parseBytes_serialize hbytes
    (st.codec.lawful.parseMessage_request request.id request.methodName request.parameters.items)
    (Nat.le_refl 4)
  have hreceived : .request request ∈ link.server.received := by
    have hsome : some (.request request) ∈ s.pushed st := by
      rw [pushed_eq]
      exact List.mem_map.mpr ⟨bytes, hpushed, hparse⟩
    rw [← h.received hconnected hlives] at hsome
    obtain ⟨m, hm, heq⟩ := List.mem_map.mp hsome
    exact Option.some.inj heq ▸ hm
  have hdispatched : .request request ∈ link.server.dispatched := by
    have hperm := htraces.accounts.dispatched
    rw [h.server.invoked, List.append_nil] at hperm
    exact hperm.mem_iff.mpr (List.mem_filterMap.mpr ⟨_, hreceived, rfl⟩)
  have hlive := hlives.links link hmem
  rcases hlive.executes request hdispatched with ⟨r, hr, hpc⟩ | ⟨response, hresponse, hfor⟩ |
    hinterrupted
  · rw [h.server.routines r hr] at hpc
    cases hpc
  · -- and what it has been answered with has been written
    have hsent := h.server.drained hlive.server htraces.accounts h.atServer.1 h.atServer.2.1
    exact ⟨response, hrequest, (Multiset.coe_eq_coe.mp hsent).mem_iff.mpr hresponse, hfor⟩
  · rw [hrunning.interrupted link hmem] at hinterrupted
    cases hinterrupted

/-- Every message that has been written to the client has arrived. -/
theorem Settled.arrives (h : s.Settled k link) (hconnected : s.Connected st first)
    (hlives : s.Lives st) (hmethods : ∀ n, (st.methods n).IsFunctional st.codec.lib) :
    link.received.map some = link.toClient.sent.map (parseBytes st.codec.lib) := by
  have hk : s.client.connections[0]? = some k := by rw [h.connections, List.getElem?_cons_zero]
  have hlink : s.links[0]? = some link := by rw [h.links, List.getElem?_cons_zero]
  have htraces := hconnected.wire.links 0 k link hk hlink
  have hnoWrites : link.toClient.writes = [] := by
    refine List.eq_nil_of_length_eq_zero ?_
    rw [htraces.writesToClient, h.atServer.2.1, List.length_nil]
  have hread := htraces.toClient.read_eq (hlives.links link (List.mem_of_getElem? hlink)).toClient
    hnoWrites h.atClient.2.2
  obtain ⟨ms, htakes, hparsed⟩ := htraces.exists_parsed_toClient hmethods
  have hdrained := MessageParser.drain_flatten (st.codec.parser_incremental st.clientBuffer) htakes
  have hreceived := htraces.readClient.received
  rw [hread] at hreceived
  rw [hreceived, hparsed]
  exact congrArg (fun drained => drained.messages.map some) hdrained

theorem Settled.isSet (h : s.Settled k link) (hconnected : s.Connected st first)
    (hlives : s.Lives st) (hgives : s.GivesOnce st) (hrunning : s.IsRunning)
    (hmethods : ∀ n, (st.methods n).IsFunctional st.codec.lib)
    (hids : s.calls.generated ≤ 2 ^ 32) {i : Nat} (hi : i ∈ s.sent) : s.IsSet i := by
  have hmem : link ∈ s.links := by rw [h.links]; exact List.mem_singleton_self link
  obtain ⟨request, response, hrequest, hsent, hfor⟩ :=
    h.answered hconnected hlives hgives hrunning hi
  obtain ⟨result, hparse, -⟩ := hfor.parses hmethods
  have hreceived : .response { id := request.id, result } ∈ link.received := by
    have hsome : some (.response { id := request.id, result }) ∈ link.received.map some := by
      rw [h.arrives hconnected hlives hmethods]
      exact List.mem_map.mpr ⟨response, hsent, hparse⟩
    obtain ⟨m, hm, heq⟩ := List.mem_map.mp hsome
    exact Option.some.inj heq ▸ hm
  have hunlisted := (hlives.handled hids link hmem _ hreceived).resolve_left (by
    rw [h.arrived]
    exact List.not_mem_nil)
  obtain ⟨asked, create, promise, -, hcreate, rfl⟩ := requestOf_eq_some.mp hrequest
  have hregistry := hconnected.calls.registry
  have hregistered :=
    hregistry.references _ (List.mem_of_getElem? hcreate) create promise rfl
  have hcompleted : promise ∈ s.calls.completed := by
    by_contra hwaiting
    have hlisted := hregistry.waiting promise create hregistered hwaiting
    cases hlisted.symm.trans hunlisted
  obtain ⟨c, hc, rfl⟩ := List.mem_map.mp hcompleted
  refine ⟨create, c.promise, c.cause.outcome, hcreate, hregistry.outcomes c hc, ?_⟩
  cases c.cause <;> rfl

theorem invocationOf_request {request : ParsedRequest} {bytes : Bytes}
    (h : st.serializeRequest request = some bytes) :
    (parseBytes st.codec.lib bytes).bind Invocation.ofMessage = some (.request request) := by
  have hparse := st.codec.lawful.parseMessage_request request.id request.methodName
    request.parameters.items
  rw [st.codec.lawful.parseBytes_serialize h hparse (Nat.le_refl 4)]
  rfl

theorem invocationOf_notification {asked : Asked} {bytes : Bytes}
    (h : st.serializeNotification asked = some bytes) :
    (parseBytes st.codec.lib bytes).bind Invocation.ofMessage =
      some (.notification ⟨asked.methodName, ⟨asked.parameters⟩⟩) := by
  have hparse := st.codec.lawful.parseMessage_notification asked.methodName asked.parameters
  rw [st.codec.lawful.parseBytes_serialize h hparse (Nat.le_succ 3)]
  rfl

/-- What has been given to the sender, as the server takes it. -/
theorem GivesOnce.askedFor_eq (h : s.GivesOnce st) :
    (s.given st).filterMap (fun bytes =>
      (parseBytes st.codec.lib bytes).bind Invocation.ofMessage) = s.askedFor st := by
  rw [given, List.filterMap_append, askedFor]
  congr 1
  · rw [List.filterMap_filterMap, List.map_filterMap]
    refine List.filterMap_congr fun i hi => ?_
    obtain ⟨request, bytes, hrequest, hbytes⟩ := h.returned i hi
    rw [requestBytes_eq_some hrequest hbytes, hrequest, Option.bind_some,
      invocationOf_request hbytes]
    rfl
  · rw [List.filterMap_filterMap, ← List.filterMap_eq_map, List.filterMap_filter]
    refine List.filterMap_congr fun asked _ => ?_
    cases hbytes : st.serializeNotification asked with
    | none => rfl
    | some bytes => exact invocationOf_notification hbytes

/-- The processor has got what has been given to the sender. -/
theorem Settled.executed (h : s.Settled k link) (hconnected : s.Connected st first)
    (hlives : s.Lives st) (hgives : s.GivesOnce st) :
    link.server.dispatched.Perm (s.askedFor st) := by
  have hmem : link ∈ s.links := by rw [h.links]; exact List.mem_singleton_self link
  obtain ⟨k', htraces⟩ := hconnected.wire.traces hmem
  have hperm := htraces.accounts.dispatched
  rw [h.server.invoked, List.append_nil] at hperm
  have hpushed : (s.client.pushed.map Entry.message).Perm (s.given st) := by
    have hoffered := hgives.offered
    rw [Client.offered, h.client.sum_eq_zero _ rfl, add_zero, Multiset.coe_eq_coe] at hoffered
    exact hoffered
  have hsame : link.server.received.filterMap Invocation.ofMessage =
      (s.client.pushed.map Entry.message).filterMap fun bytes =>
        (parseBytes st.codec.lib bytes).bind Invocation.ofMessage := by
    have hmaps := congrArg (List.filterMap fun m => m.bind Invocation.ofMessage)
      (h.received hconnected hlives)
    rw [pushed_eq, List.filterMap_map, List.filterMap_map] at hmaps
    exact hmaps
  rw [hsame] at hperm
  exact hperm.trans ((hpushed.filterMap _).trans (.of_eq hgives.askedFor_eq))

end Session

end MsgpackRpc.Rpc
