import MsgpackRpc.Clients.SingleConnection
import MsgpackRpc.Rpc.OwnAnswers

/-!
# Delivery on a connection that stays up

While the connection of a client stays up and whoever wins the exchange of `is_sending_` has copied
the front of the queue, the server receives what has been pushed, in this order and each message
once, however the bytes are cut.
-/

namespace MsgpackRpc.Rpc

open Messages
open MsgpackRpc.Transport
open Clients (Client ClientAction Entry MessageID)
open Servers (Invocation ServerAction ServerConnection)

/-- The ID of a request. -/
def Invocation.requestID : Invocation → Option MessageID
  | .request request => some request.id
  | .notification _ => none

/-- A handler has started at most the write of its own message. -/
theorem sent_sends {μ : Type} {bytes : μ → Bytes} {c : Connection μ} {e : Connection.Event}
    {out out' : ByteStream} (h : sends bytes c out e = some out') :
    out'.sent = out.sent ++ ((e.starts c).map bytes).toList := by
  have unchanged (hsame : out'.sent = out.sent) (hnone : e.starts c = none) :
      out'.sent = out.sent ++ ((e.starts c).map bytes).toList := by
    rw [hsame, hnone, Option.map_none, Option.toList_none, List.append_nil]
  cases e with
  | task i calls =>
    simp only [sends] at h
    split at h
    · rename_i message htask
      cases h
      rw [Connection.Event.starts, htask]
      rfl
    · rename_i hother
      cases h
      refine unchanged rfl ?_
      rw [Connection.Event.starts]
      cases htask : c.tasks[i]? with
      | none => rfl
      | some task =>
        cases task with
        | asyncSendInThread message => exact absurd htask (hother message)
        | _ => rfl
  | write i error =>
    obtain ⟨rest, -, -, rfl⟩ := ByteStream.endWrite_eq_some h
    exact unchanged rfl rfl
  | read =>
    cases h
    exact unchanged rfl rfl

theorem sent_receives {input input' : ByteStream} {e : Connection.Event}
    (h : receives input e = some input') : input'.sent = input.sent := by
  unfold receives at h
  split at h
  · obtain ⟨rest, -, rfl⟩ := ByteStream.takeBytes_eq_some h
    rfl
  · cases h
    rfl

theorem Link.Traces.exists_parsed_toServer {st : Setting} {s : Session}
    {k : Connection (Entry Bytes)} {link : Link} (h : link.Traces st s k) :
    ∃ ms, List.Forall₂ st.serverParser.TakesAs link.toServer.sent ms ∧
      link.toServer.sent.map (parseBytes st.codec.lib) = ms.map some := by
  refine exists_parsed fun bytes hmem => ?_
  obtain ⟨m, hparse, -, htakes⟩ := (h.toServer.messages bytes hmem).parses
  exact ⟨m, hparse, htakes⟩

/-- The server has received, in order, what the client has begun to write. -/
theorem Link.Traces.received_prefix {st : Setting} {s : Session}
    {k : Connection (Entry Bytes)} {link : Link} (h : link.Traces st s k) :
    link.server.received.map some <+: link.toServer.sent.map (parseBytes st.codec.lib) := by
  have hp := st.codec.parser_incremental st.serverBuffer
  obtain ⟨ms, htakes, hsame⟩ := h.exists_parsed_toServer
  have hdrained := (MessageParser.drain_of_prefix hp htakes h.toServer.read_prefix).2
  rw [hsame, h.readServer.received]
  exact hdrained.map some

/-- The step of the client in a step of the session. -/
def Action.ofClient : Action → Option (ClientAction Bytes)
  | .client a => some a
  | _ => none

namespace Session

/-- A step in which the connection of the client stays up, and in which whoever wins the exchange
has copied the front. -/
def KeepsUp (s : Session) (a : Action) (s' : Session) : Prop :=
  ∀ b ∈ a.ofClient, Client.StaysUp b s'.client ∧ s.client.TakesFront b

instance (s : Session) (a : Action) (s' : Session) : Decidable (s.KeepsUp a s') :=
  inferInstanceAs (Decidable (∀ b ∈ a.ofClient, _ ∧ _))

/-- The messages whose writes the client has started. -/
def written (s : Session) : List Bytes := (s.links.map fun link => link.toServer.sent).flatten

/-- What a run keeps of the sender of the client. -/
structure Serves (s : Session) : Prop where
  serving : s.client.Serving
  single : s.client.tokens ≤ 1
  begun : ∃ begun, s.client.HasBegun begun ∧ s.written = begun.map Entry.message

variable {st : Setting} {first : MessageID} {s s' : Session}

theorem serves_init (first : MessageID) : Serves { calls := { nextId := first } } where
  serving := Client.serving_init
  single := Nat.le_refl 1
  begun := ⟨[], StopAndWait.hasBegun_nil, rfl⟩

/-- A step that leaves the client alone and starts no write of it. -/
theorem Serves.congr (h : s.Serves) (hclient : s'.client = s.client)
    (hwritten : s'.written = s.written) : s'.Serves where
  serving := hclient ▸ h.serving
  single := hclient ▸ h.single
  begun := by
    rw [hclient, hwritten]
    exact h.begun

/-- A step at a link that starts no write of the client. -/
theorem written_set {c : Nat} {link link' : Link} (hlink : s.links[c]? = some link)
    (hsent : link'.toServer.sent = link.toServer.sent) (hlinks : s'.links = s.links.set c link') :
    s'.written = s.written := by
  obtain ⟨hlt, rfl⟩ := List.getElem?_eq_some_iff.mp hlink
  rw [written, written, hlinks, List.map_set, hsent]
  congr 1
  refine List.ext_getElem? fun i => ?_
  rw [List.getElem?_set]
  split
  · rename_i heq
    subst heq
    rw [List.length_map, if_pos hlt, List.getElem?_map, hlink, Option.map_some]
  · rfl

theorem Serves.setLink (h : s.Serves) {c : Nat} {link link' : Link}
    (hlink : s.links[c]? = some link) (hclient : s'.client = s.client)
    (hlinks : s'.links = s.links.set c link')
    (hsent : link'.toServer.sent = link.toServer.sent) : s'.Serves :=
  h.congr hclient (written_set hlink hsent hlinks)

/-- A step of the client and the writes that it starts. -/
theorem Serves.client (h : s.Serves) {a : ClientAction Bytes}
    (hsteps : Client.Steps st.clientParser s.client a s'.client)
    (hup : Client.StaysUp a s'.client) (hfront : s.client.TakesFront a)
    (hwritten : s'.written = s.written ++ ((s.client.starting a).map Entry.message).toList) :
    s'.Serves := by
  have hserving := h.serving.step hup hfront hsteps
  obtain ⟨begun, hbegun, hmessages⟩ := h.begun
  refine ⟨hserving, (h.serving.tokens_step hsteps).trans h.single, _,
    hbegun.step h.serving hsteps, ?_⟩
  rw [hwritten, hmessages, List.map_append]
  cases s.client.starting a <;> rfl

/-- A caller of the client only starts a routine. -/
theorem Serves.send (h : s.Serves) {bytes : Bytes} {id : Option MessageID}
    (hclient : s.client.step st.clientParser (.send bytes id) = some s'.client)
    (hlinks : s'.links = s.links) : s'.Serves := by
  refine h.client (Client.steps_of_step hclient) ⟨?_, rfl⟩ ?_ ?_
  · have hconnections : s'.client.connections = s.client.connections := by
      rw [Client.step, Option.some.injEq] at hclient
      rw [← hclient]
      rfl
    rw [hconnections]
    exact h.serving.up
  · intro entry hentry
    cases hentry
  · rw [written, hlinks]
    exact (List.append_nil _).symm

/-- A handler of the one connection of the client. -/
theorem written_clientContext (hone : s.links.length ≤ 1) {c : Nat} {link link' : Link}
    {e : Connection.Event} {k : Connection (Entry Bytes)}
    (hk : s.client.connections[c]? = some k) (hlink : s.links[c]? = some link)
    (hsends : sends Entry.message k link.toServer e = some link'.toServer)
    (hlinks : s'.links = s.links.set c link') :
    s'.written =
      s.written ++ ((s.client.starting (.context c e)).map Entry.message).toList := by
  obtain ⟨hlt, hlink⟩ := List.getElem?_eq_some_iff.mp hlink
  obtain rfl : c = 0 := by omega
  obtain ⟨only, honly⟩ := List.length_eq_one_iff.mp (Nat.le_antisymm hone hlt)
  simp only [honly, List.getElem_cons_zero] at hlink
  subst hlink
  rw [written, written, hlinks, honly, List.set_cons_zero, Client.starting, hk, Option.bind_some]
  simp only [List.map_cons, List.map_nil, List.flatten_cons, List.flatten_nil, List.append_nil]
  exact sent_sends hsends

theorem Serves.length_links (h : s.Serves)
    (haligned : s.links.length = s.client.connections.length) : s.links.length ≤ 1 := by
  have hsingle := h.single
  unfold Client.tokens at hsingle
  omega

theorem Serves.step {a : Action} (h : s.Serves) (haligned : s.links.length =
    s.client.connections.length) (hup : s.KeepsUp a s') (hsteps : Steps st s a s') :
    s'.Serves := by
  have hone := h.length_links haligned
  cases hsteps with
  | asyncCall | calls | notifyThrown => exact h.congr rfl rfl
  | sent _ _ _ _ hclient | notified _ hclient => exact h.send hclient rfl
  | @client a client hown hclient =>
    obtain ⟨hstays, hfront⟩ := hup _ rfl
    refine h.client (Client.steps_of_step hclient) hstays hfront ?_
    have hnone : s.client.starting a = none := by
      cases a with
      | context => cases hown
      | _ => rfl
    rw [hnone, written, List.map_append, List.map_replicate, List.flatten_append]
    exact congrArg (s.written ++ ·) List.flatten_replicate_nil
  | clientContext hk hlink _ hsends _ hclient =>
    obtain ⟨hstays, hfront⟩ := hup _ rfl
    exact h.client (Client.steps_of_step hclient) hstays hfront
      (written_clientContext hone hk hlink hsends rfl)
  | received hlink | ignored hlink | server hlink | called hlink | notifiedMethod hlink
  | toClient hlink =>
    exact h.setLink hlink rfl rfl rfl
  | serverContext hlink _ hreceives => exact h.setLink hlink rfl rfl (sent_receives hreceives)
  | toServer hlink htransfer =>
    obtain ⟨bytes, -, -, -, rfl⟩ := ByteStream.transfer_eq_some htransfer
    exact h.setLink hlink rfl rfl rfl

/-- At most one message waits for its `on_sent`, so no write is under way when one is started. -/
theorem Serves.writesAlone (h : s.Serves) (a : Action) : s.writesAlone a = true := by
  unfold Session.writesAlone
  split
  · rename_i c i calls
    split
    · rfl
    · rename_i k hk
      split
      · rename_i entry htask
        rw [List.isEmpty_iff]
        have hone := h.serving.sendsInOrder.single
        obtain ⟨rest, hsum, -⟩ := List.exists_sum_map_set Connection.sends hk
        have hsends : k.sends.card ≤ 1 := by
          refine (Multiset.card_le_card ?_).trans hone
          rw [Client.outstanding, hsum]
          exact (Multiset.le_add_right _ _).trans (Multiset.le_add_left _ _)
        rw [Connection.sends_eraseTask htask, Multiset.card_add] at hsends
        simp only [Connection.sends, Task.message, Option.toList_some, Multiset.coe_singleton,
          Multiset.card_singleton, Multiset.card_add, Multiset.coe_card, List.length_map] at hsends
        exact List.eq_nil_of_length_eq_zero (by omega)
      · rfl
  · rfl

/-- What the messages of the queue say, in the order in which they have been pushed. -/
def pushed (st : Setting) (s : Session) : List (Option ParsedMessage) :=
  s.client.pushed.map fun entry => parseBytes st.codec.lib entry.message

theorem pushed_eq (st : Setting) (s : Session) :
    s.pushed st = (s.client.pushed.map Entry.message).map (parseBytes st.codec.lib) := by
  rw [List.map_map]
  rfl

/-- There is one connection, over which the server has received the pushed messages in their order
and each once, and has begun each of their invocations at most once. -/
structure DeliversInOrder (st : Setting) (s : Session) : Prop where
  one : s.links.length ≤ 1
  received : ∀ link ∈ s.links, link.server.received.map some <+: s.pushed st
  dispatched : ∀ link ∈ s.links, link.server.dispatched.Subperm
    ((s.pushed st).filterMap fun m => m.bind Invocation.ofMessage)

theorem Serves.deliversInOrder (h : s.Serves) (hwire : s.WireTraced st) :
    s.DeliversInOrder st := by
  have hone := h.length_links hwire.aligned
  have hreceived : ∀ link ∈ s.links, link.server.received.map some <+: s.pushed st := by
    intro link hmem
    obtain ⟨k, htraces⟩ := hwire.traces hmem
    have hpos := List.length_pos_of_mem hmem
    obtain ⟨only, honly⟩ := List.length_eq_one_iff.mp (Nat.le_antisymm hone hpos)
    rw [honly, List.mem_singleton] at hmem
    obtain ⟨begun, hbegun, hmessages⟩ := h.begun
    have hsent : link.toServer.sent = begun.map Entry.message := by
      rw [← hmessages, written, honly, hmem]
      exact (List.append_nil _).symm
    have hpushed := hbegun.begun_prefix.trans h.serving.sendsInOrder.order
    refine htraces.received_prefix.trans ?_
    rw [hsent, List.map_map]
    exact hpushed.map _
  refine ⟨hone, hreceived, fun link hmem => ?_⟩
  obtain ⟨k, htraces⟩ := hwire.traces hmem
  -- what has been begun has been received
  have hbegun : link.server.dispatched.Subperm
      (link.server.received.filterMap Invocation.ofMessage) :=
    (List.sublist_append_left _ _).subperm.trans htraces.accounts.dispatched.subperm
  have hsame : link.server.received.filterMap Invocation.ofMessage =
      (link.server.received.map some).filterMap fun m => m.bind Invocation.ofMessage := by
    rw [List.filterMap_map]
    rfl
  rw [hsame] at hbegun
  exact hbegun.trans ((hreceived link hmem).sublist.filterMap _).subperm

end Session

namespace Session

/-- What a run keeps in which the connection stays up. -/
structure Connected (st : Setting) (first : MessageID) (s : Session) : Prop where
  calls : s.CallsTraced st first
  wire : s.WireTraced st
  serves : s.Serves

theorem connected_init (st : Setting) (first : MessageID) :
    Connected st first { calls := { nextId := first } } where
  calls := callsTraced_init st first
  wire := wireTraced_init st first
  serves := serves_init first

theorem Connected.step {st : Setting} {first : MessageID} {s s' : Session} {a : Action}
    (h : s.Connected st first) (hup : s.KeepsUp a s') (hsteps : Steps st s a s') :
    s'.Connected st first where
  calls := h.calls.step h.wire hsteps
  wire := h.wire.step (h.serves.writesAlone a) hsteps
  serves := h.serves.step h.wire.aligned hup hsteps

end Session

/-- Over a connection that stays up the server gets the messages of its client in order. -/
theorem deliversInOrder_of_keepsUp (st : Setting) (first : MessageID) (schedule : List Action)
    (s : Session)
    (hup : (sessionMachine st first).Meets Session.KeepsUp (sessionMachine st first).init schedule)
    (hrun : (sessionMachine st first).run (sessionMachine st first).init schedule = some s) :
    s.DeliversInOrder st := by
  have hkeep : ∀ s a s', s.Connected st first → s.KeepsUp a s' →
      (sessionMachine st first).step s a = some s' → s'.Connected st first :=
    fun s a s' h hok hstep => h.step hok (Session.steps_of_step hstep)
  have h := Machine.run_invariant hkeep (Session.connected_init st first) hup hrun
  exact h.serves.deliversInOrder h.wire

theorem deliversInOrder_echoSchedule :
    ∃ s, (sessionMachine echoSetting 7).run (sessionMachine echoSetting 7).init echoSchedule =
        some s ∧
      (s.links.map fun link => link.server.dispatched.map Invocation.requestID) =
        [[some 7, some 8]] ∧
      s.DeliversInOrder echoSetting := by
  have hrun : ((sessionMachine echoSetting 7).run (sessionMachine echoSetting 7).init
      echoSchedule).map (fun s =>
        s.links.map fun link => link.server.dispatched.map Invocation.requestID) =
          some [[some 7, some 8]] := by
    decide +kernel
  obtain ⟨s, hs, hdispatched⟩ := Option.map_eq_some_iff.mp hrun
  exact ⟨s, hs, hdispatched,
    deliversInOrder_of_keepsUp echoSetting 7 echoSchedule s (by decide +kernel) hs⟩

end MsgpackRpc.Rpc
