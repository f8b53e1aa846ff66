import MsgpackRpc.Rpc.Delivery

/-!
# Calls are executed at most once

Each call gives its request to the sender once, under an ID of its own, so a connection that stays
up does not bring the same request to the server twice.
-/

namespace MsgpackRpc.Rpc

open Messages
open MsgpackRpc.Transport
open Clients (CallList Client ClientAction Entry MessageID)
open Servers (Invocation ServerConnection)

namespace Session

variable (st : Setting)

/-- What the `i`-th call gives to the sender. -/
def requestBytes (s : Session) (i : Nat) : Option Bytes :=
  (s.requestOf i).bind st.serializeRequest

/-- Everything that has been given to the sender. -/
def given (s : Session) : List Bytes :=
  s.sent.filterMap (s.requestBytes st) ++ s.notified.filterMap st.serializeNotification

/-- What every run keeps of the messages that are given to the sender. -/
structure GivesOnce (s : Session) : Prop where
  offered : s.client.offered = ↑(s.given st)
  once : s.sent.Nodup
  returned : ∀ i ∈ s.sent, ∃ request bytes, s.requestOf i = some request ∧
    st.serializeRequest request = some bytes

variable {st} {first : MessageID} {s s' : Session}

theorem requestBytes_eq_some {i : Nat} {request : ParsedRequest} {bytes : Bytes}
    (hrequest : s.requestOf i = some request) (hbytes : st.serializeRequest request = some bytes) :
    s.requestBytes st i = some bytes := by
  rw [requestBytes, hrequest, Option.bind_some, hbytes]

theorem givesOnce_init (st : Setting) (first : MessageID) :
    GivesOnce st { calls := { nextId := first } } where
  offered := rfl
  once := List.nodup_nil
  returned := nofun

/-- A step in which nothing is given to the sender. -/
theorem GivesOnce.congr (h : s.GivesOnce st) (hgrows : Grows s s')
    (hclient : s'.client.offered = s.client.offered) (hsent : s'.sent = s.sent)
    (hnotified : s'.notified = s.notified) : s'.GivesOnce st where
  offered := by
    have hsame : s.sent.filterMap (s'.requestBytes st) = s.sent.filterMap (s.requestBytes st) := by
      refine List.filterMap_congr fun i hi => ?_
      obtain ⟨request, bytes, hrequest, hbytes⟩ := h.returned i hi
      rw [requestBytes_eq_some hrequest hbytes,
        requestBytes_eq_some (hgrows.requests i request hrequest) hbytes]
    rw [hclient, h.offered, given, given, hsent, hnotified, hsame]
  once := hsent ▸ h.once
  returned i hi := by
    obtain ⟨request, bytes, hrequest, hbytes⟩ := h.returned i (hsent ▸ hi)
    exact ⟨request, bytes, hgrows.requests i request hrequest, hbytes⟩

theorem GivesOnce.sent (h : s.GivesOnce st) {i : Nat} {request : ParsedRequest} {bytes : Bytes}
    {id : Option MessageID} {client : Client Bytes} (hrequest : s.requestOf i = some request)
    (hnew : i ∉ s.sent) (hbytes : st.serializeRequest request = some bytes)
    (hclient : s.client.step st.clientParser (.send bytes id) = some client) :
    GivesOnce st { s with client, sent := s.sent ++ [i] } := by
  refine ⟨?_, ?_, fun j hj => ?_⟩
  · rw [(Client.steps_of_step hclient).offered, h.offered]
    show ↑(s.given st) + ({bytes} : Multiset Bytes) =
      ↑((s.sent ++ [i]).filterMap (s.requestBytes st) ++
        s.notified.filterMap st.serializeNotification)
    rw [given, List.filterMap_append,
      List.filterMap_cons_some (requestBytes_eq_some hrequest hbytes), List.filterMap_nil,
      ← Multiset.coe_add, ← Multiset.coe_add, ← Multiset.coe_add, add_right_comm]
    rfl
  · exact List.nodup_append'.mpr ⟨h.once, List.nodup_singleton i,
      List.disjoint_singleton.mpr hnew⟩
  · rcases List.mem_append.mp hj with hj | hj
    · exact h.returned j hj
    · rw [List.mem_singleton.mp hj]
      exact ⟨request, bytes, hrequest, hbytes⟩

theorem GivesOnce.notified (h : s.GivesOnce st) {asked : Asked} {bytes : Bytes}
    {client : Client Bytes} (hbytes : st.serializeNotification asked = some bytes)
    (hclient : s.client.step st.clientParser (.send bytes none) = some client) :
    GivesOnce st { s with client, notified := s.notified ++ [asked] } := by
  refine ⟨?_, h.once, h.returned⟩
  rw [(Client.steps_of_step hclient).offered, h.offered]
  show ↑(s.given st) + ({bytes} : Multiset Bytes) =
    ↑(s.sent.filterMap (s.requestBytes st) ++
      (s.notified ++ [asked]).filterMap st.serializeNotification)
  rw [given, List.filterMap_append, List.filterMap_cons_some hbytes, List.filterMap_nil,
    ← List.append_assoc, ← Multiset.coe_add]
  rfl

theorem GivesOnce.step {a : Action} (h : s.GivesOnce st) (hsteps : Steps st s a s') :
    s'.GivesOnce st := by
  have hgrows := hsteps.grows
  cases hsteps with
  | sent hasked hcreate hnew hbytes hclient =>
    have hrequest := requestOf_eq_some.mpr ⟨_, _, _, hasked, hcreate, rfl⟩
    exact h.sent hrequest hnew hbytes hclient
  | notified hbytes hclient => exact h.notified hbytes hclient
  | @client a client hown hclient =>
    have hnone : a.offers = 0 := by
      cases a with
      | send => cases hown
      | _ => rfl
    refine h.congr hgrows ?_ rfl rfl
    rw [(Client.steps_of_step hclient).offered, hnone, add_zero]
  | clientContext _ _ _ _ _ hclient =>
    exact h.congr hgrows ((Client.steps_of_step hclient).offered.trans (add_zero _)) rfl rfl
  | _ => exact h.congr hgrows rfl rfl rfl

/-! ## Each request once -/

/-- The ID of the request that bytes are, if they are one. -/
def idOf (st : Setting) (bytes : Bytes) : Option MessageID :=
  ((parseBytes st.codec.lib bytes).bind Invocation.ofMessage).bind Invocation.requestID

theorem idOf_request {request : ParsedRequest} {bytes : Bytes}
    (h : st.serializeRequest request = some bytes) : idOf st bytes = some request.id := by
  have hparse := st.codec.lawful.parseMessage_request request.id request.methodName
    request.parameters.items
  rw [idOf, st.codec.lawful.parseBytes_serialize h hparse (Nat.le_refl 4)]
  rfl

theorem idOf_notification {asked : Asked} {bytes : Bytes}
    (h : st.serializeNotification asked = some bytes) : idOf st bytes = none := by
  have hparse := st.codec.lawful.parseMessage_notification asked.methodName asked.parameters
  rw [idOf, st.codec.lawful.parseBytes_serialize h hparse (Nat.le_succ 3)]
  rfl

/-- Before the IDs wrap around, no two messages given to the sender are requests with one ID. -/
theorem GivesOnce.ids_nodup (h : s.GivesOnce st) (hcalls : s.CallsTraced st first)
    (hids : s.calls.generated ≤ 2 ^ 32) : ((s.given st).filterMap (idOf st)).Nodup := by
  have hnone : (s.notified.filterMap st.serializeNotification).filterMap (idOf st) = [] := by
    rw [List.filterMap_eq_nil_iff]
    intro bytes hmem
    obtain ⟨asked, -, hbytes⟩ := List.mem_filterMap.mp hmem
    exact idOf_notification hbytes
  have hnamed {i : Nat} {id : MessageID}
      (hi : (s.requestBytes st i).bind (idOf st) = some id) :
      ∃ request promise, s.calls.creates[i]? = some (.returned request promise) ∧
        request.id = id := by
    obtain ⟨bytes, hbytes, hid⟩ := Option.bind_eq_some_iff.mp hi
    obtain ⟨request, hrequest, hserialized⟩ := Option.bind_eq_some_iff.mp hbytes
    obtain ⟨asked, create, promise, -, hcreate, rfl⟩ := requestOf_eq_some.mp hrequest
    rw [idOf_request hserialized, Option.some.injEq] at hid
    exact ⟨create, promise, hcreate, hid⟩
  rw [given, List.filterMap_append, hnone, List.append_nil, List.filterMap_filterMap]
  refine h.once.filterMap fun i j id hi hj => ?_
  obtain ⟨request, promise, hcreate, hid⟩ := hnamed hi
  obtain ⟨request', promise', hcreate', hid'⟩ := hnamed hj
  exact hcalls.eq_of_id hids hcreate hcreate' rfl rfl (hid.trans hid'.symm)

/-- No request is executed twice. -/
def ExecutesOnce (s : Session) : Prop :=
  ∀ link ∈ s.links, (link.server.dispatched.filterMap Invocation.requestID).Nodup

theorem GivesOnce.executesOnce (h : s.GivesOnce st) (hcalls : s.CallsTraced st first)
    (hids : s.calls.generated ≤ 2 ^ 32) (hdelivers : s.DeliversInOrder st) : s.ExecutesOnce := by
  intro link hmem
  have hgiven := h.ids_nodup hcalls hids
  have hpushed : (s.client.pushed.map Entry.message).Subperm (s.given st) := by
    rw [← Multiset.coe_le, ← h.offered]
    exact Multiset.le_add_right _ _
  have hids : (s.pushed st).filterMap (fun m => (m.bind Invocation.ofMessage).bind
      Invocation.requestID) = (s.client.pushed.map Entry.message).filterMap (idOf st) := by
    rw [pushed, List.filterMap_map, List.filterMap_map]
    rfl
  obtain ⟨l, hl, hsub⟩ := hdelivers.dispatched link hmem
  obtain ⟨l', hl', hsub'⟩ := hpushed
  have hfirst := hsub.filterMap Invocation.requestID
  rw [List.filterMap_filterMap, hids] at hfirst
  have hnodup : ((s.client.pushed.map Entry.message).filterMap (idOf st)).Nodup :=
    (hl'.filterMap _).nodup_iff.mp ((hsub'.filterMap _).nodup hgiven)
  exact (hl.filterMap _).nodup_iff.mp (hfirst.nodup hnodup)

end Session

/-- Over a connection that stays up every call is executed at most once. -/
theorem executesOnce_of_keepsUp (st : Setting) (first : MessageID) (schedule : List Action)
    (s : Session)
    (hup : (sessionMachine st first).Meets Session.KeepsUp (sessionMachine st first).init schedule)
    (hrun : (sessionMachine st first).run (sessionMachine st first).init schedule = some s)
    (hids : s.calls.generated ≤ 2 ^ 32) : s.ExecutesOnce := by
  have hkeep : ∀ s a s', s.Connected st first ∧ s.GivesOnce st → s.KeepsUp a s' →
      (sessionMachine st first).step s a = some s' →
      s'.Connected st first ∧ s'.GivesOnce st := by
    intro s a s' ⟨h, hgives⟩ hok hstep
    have hsteps := Session.steps_of_step hstep
    exact ⟨h.step hok hsteps, hgives.step hsteps⟩
  have hinit := And.intro (Session.connected_init st first) (Session.givesOnce_init st first)
  obtain ⟨h, hgives⟩ := Machine.run_invariant hkeep hinit hup hrun
  exact hgives.executesOnce h.calls hids (h.serves.deliversInOrder h.wire)

theorem executesOnce_echoSchedule :
    ∃ s, (sessionMachine echoSetting 7).run (sessionMachine echoSetting 7).init echoSchedule =
        some s ∧
      (s.links.map fun link => link.server.dispatched.filterMap Invocation.requestID) = [[7, 8]] ∧
      s.ExecutesOnce := by
  have hrun : ((sessionMachine echoSetting 7).run (sessionMachine echoSetting 7).init
      echoSchedule).map (fun s =>
        (s.links.map fun link => link.server.dispatched.filterMap Invocation.requestID,
          s.calls.generated)) = some ([[7, 8]], 2) := by
    decide +kernel
  obtain ⟨s, hs, hends⟩ := Option.map_eq_some_iff.mp hrun
  obtain ⟨hdispatched, hgenerated⟩ := Prod.mk.inj hends
  refine ⟨s, hs, hdispatched, executesOnce_of_keepsUp echoSetting 7 echoSchedule s
    (by decide +kernel) hs ?_⟩
  rw [hgenerated]
  decide

end MsgpackRpc.Rpc
