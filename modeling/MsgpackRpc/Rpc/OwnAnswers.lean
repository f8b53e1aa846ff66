import MsgpackRpc.Rpc.Provenance

/-!
# Every caller gets the answer to its own call

However the threads of both sides interleave, however the bytes are cut, and however often a client
loses its connection and sends again, a future is completed at most once, and a response that
completes it says what the processor has returned for this very call.
-/

namespace MsgpackRpc.Rpc

open Messages Methods
open MsgpackRpc.Transport
open Clients (CallList CallListAction Client ClientAction Create MessageID)
open Servers (Invocation ServerAction ServerConnection)

namespace Session

/-- A connection of the client starts a write only when it has none under way. -/
def writesAlone (s : Session) : Action → Bool
  | .client (.context c (.task i _)) =>
      match s.client.connections[c]? with
      | none => true
      | some k =>
          match k.tasks[i]? with
          | some (.asyncSendInThread _) => k.writes.isEmpty
          | _ => true
  | _ => true

theorem writes_eq_nil {s : Session} {c i : Nat} {calls : SocketCalls}
    {k : Connection (Clients.Entry Bytes)} {entry : Clients.Entry Bytes}
    (h : s.writesAlone (.client (.context c (.task i calls))) = true)
    (hk : s.client.connections[c]? = some k)
    (htask : k.tasks[i]? = some (.asyncSendInThread entry)) : k.writes = [] := by
  simp only [writesAlone, hk, htask, List.isEmpty_iff] at h
  exact h

/-- What every run keeps of the calls.  That a response answers a request takes methods whose errors
and results can be told apart. -/
structure CallsTraced (st : Setting) (first : MessageID) (s : Session) : Prop where
  registry : s.calls.Registry
  numbered : s.calls.Numbered first
  turns : s.calls.DistinctTurns
  answered : (∀ n, (st.methods n).IsFunctional st.codec.lib) →
    ∀ c ∈ s.calls.completions, ∀ r, c.cause = .response r →
      Replied st s (.response { id := r.id, result := r.result })

/-- What every run keeps of the messages on their way. -/
structure WireTraced (st : Setting) (s : Session) : Prop where
  holds : s.client.HoldsOnly (Serialized st s)
  processed : ∀ invocation ∈ s.processed, s.Requested invocation
  aligned : s.links.length = s.client.connections.length
  links : ∀ (c : Nat) (k : Connection (Clients.Entry Bytes)) (link : Link),
    s.client.connections[c]? = some k → s.links[c]? = some link → link.Traces st s k

variable {st : Setting} {first : MessageID} {s s' : Session}

theorem Steps.grows {a : Action} (h : Steps st s a s') : Grows s s' := by
  cases h with
  | asyncCall hcalls =>
    exact ⟨fun _ _ => requestOf_calls (CallList.steps_of_step hcalls) (List.prefix_append _ _),
      List.prefix_rfl, List.prefix_rfl, List.prefix_rfl⟩
  | calls _ hcalls | received _ _ hcalls =>
    refine ⟨fun _ _ hrequest => ?_, List.prefix_rfl, List.prefix_rfl, List.prefix_rfl⟩
    refine requestOf_calls (s := s) (CallList.steps_of_step hcalls) ?_ hrequest
    exact List.prefix_rfl
  | sent => exact ⟨fun _ _ => id, List.prefix_append _ _, List.prefix_rfl, List.prefix_rfl⟩
  | notified => exact ⟨fun _ _ => id, List.prefix_rfl, List.prefix_append _ _, List.prefix_rfl⟩
  | called | notifiedMethod =>
    exact ⟨fun _ _ => id, List.prefix_rfl, List.prefix_rfl, List.prefix_append _ _⟩
  | _ => exact ⟨fun _ _ => id, List.prefix_rfl, List.prefix_rfl, List.prefix_rfl⟩

theorem WireTraced.traces (h : s.WireTraced st) {link : Link} (hmem : link ∈ s.links) :
    ∃ k, link.Traces st s k := by
  obtain ⟨c, hlink⟩ := List.getElem?_of_mem hmem
  have hlt := h.aligned ▸ (List.getElem?_eq_some_iff.mp hlink).1
  exact ⟨_, h.links c _ link (List.getElem?_eq_getElem hlt) hlink⟩

/-! ## The calls -/

theorem callsTraced_init (st : Setting) (first : MessageID) :
    CallsTraced st first { calls := { nextId := first } } where
  registry := CallList.registry_init first
  numbered := CallList.numbered_init first
  turns _ _ _ _ hi := by cases hi
  answered _ := nofun

/-- A step that is none of the list of calls. -/
theorem CallsTraced.congr (h : s.CallsTraced st first) (hgrows : Grows s s')
    (hcalls : s'.calls = s.calls) : s'.CallsTraced st first where
  registry := hcalls ▸ h.registry
  numbered := hcalls ▸ h.numbered
  turns := hcalls ▸ h.turns
  answered := by
    rw [hcalls]
    exact fun hmethods c hc r hcause => (h.answered hmethods c hc r hcause).mono hgrows

theorem CallsTraced.calls (h : s.CallsTraced st first) (hgrows : Grows s s')
    {a : CallListAction CallResult} (hsteps : CallList.Steps s.calls a s'.calls)
    (hreplied : ∀ r, a = .handle r → (∀ n, (st.methods n).IsFunctional st.codec.lib) →
      Replied st s (.response { id := r.id, result := r.result })) : s'.CallsTraced st first := by
  refine ⟨h.registry.step hsteps, h.numbered.step hsteps, h.turns.step h.numbered hsteps, ?_⟩
  intro hmethods c hc r hcause
  rcases hsteps.completion hc with hc | ⟨r', ha, hcause'⟩ | ⟨promise, hcause'⟩
  · exact (h.answered hmethods c hc r hcause).mono hgrows
  · rw [hcause, Clients.Cause.response.injEq] at hcause'
    exact hcause' ▸ (hreplied r' ha hmethods).mono hgrows
  · rw [hcause] at hcause'
    cases hcause'

theorem CallsTraced.step {a : Action} (h : s.CallsTraced st first)
    (hwire : s.WireTraced st) (hsteps : Steps st s a s') : s'.CallsTraced st first := by
  have hgrows := hsteps.grows
  cases hsteps with
  | asyncCall hcalls => exact h.calls hgrows (CallList.steps_of_step hcalls) nofun
  | @calls _ b _ hown hcalls =>
    refine h.calls hgrows (CallList.steps_of_step hcalls) ?_
    rintro r rfl
    cases hown
  | @received c link response arrived calls hlink harrived hcalls =>
    obtain ⟨k, htraces⟩ := hwire.traces (List.mem_of_getElem? hlink)
    refine h.calls hgrows (CallList.steps_of_step hcalls) fun r hr hmethods => ?_
    cases hr
    exact htraces.replied hmethods _ (htraces.arrived (harrived ▸ List.mem_cons_self))
  | _ => exact h.congr hgrows rfl

/-! ## The messages on their way -/

theorem wireTraced_init (st : Setting) (first : MessageID) :
    WireTraced st { calls := { nextId := first } } where
  holds := Client.holdsOnly_init _
  processed := nofun
  aligned := rfl
  links _ _ _ hk := by cases hk

/-- A step that touches neither the client nor a link. -/
theorem WireTraced.congr (h : s.WireTraced st) (hgrows : Grows s s')
    (hclient : s'.client = s.client) (hlinks : s'.links = s.links)
    (hprocessed : s'.processed = s.processed) : s'.WireTraced st where
  holds := hclient ▸ h.holds.mono fun _ => .mono hgrows
  processed invocation hmem := (h.processed invocation (hprocessed ▸ hmem)).mono hgrows
  aligned := by rw [hlinks, hclient, h.aligned]
  links := by
    rw [hlinks, hclient]
    exact fun c k link hk hlink => (h.links c k link hk hlink).mono hgrows

/-- A step of the client outside the handlers; the connections that it registers get new links. -/
theorem WireTraced.client (h : s.WireTraced st) (hgrows : Grows s s')
    {a : ClientAction Bytes} (hsteps : Client.Steps st.clientParser s.client a s'.client)
    (hown : ∀ c e, a ≠ .context c e)
    (hsend : ∀ m id, a = .send m id → Serialized st s' m)
    (hlinks : s'.links = s.links ++
      List.replicate (s'.client.connections.length - s.client.connections.length) ({} : Link))
    (hprocessed : s'.processed = s.processed) : s'.WireTraced st where
  holds := (h.holds.mono fun _ => Serialized.mono hgrows).step hsend hsteps
  processed invocation hmem := (h.processed invocation (hprocessed ▸ hmem)).mono hgrows
  aligned := by
    have hle := hsteps.length_le
    rw [hlinks, List.length_append, List.length_replicate, h.aligned]
    omega
  links c k link hk hlink := by
    rw [hlinks, List.getElem?_append, h.aligned] at hlink
    rcases hsteps.connection hown hk with ⟨before, hbefore, hk'⟩ | ⟨hnone, rfl⟩
    · rw [if_pos (List.getElem?_eq_some_iff.mp hbefore).1] at hlink
      have htraces := (h.links c before link hbefore hlink).mono hgrows
      rcases hk' with rfl | ⟨task, htask, rfl⟩
      · exact htraces
      · exact htraces.post htask
    · rw [if_neg (Nat.not_lt.mpr (List.getElem?_eq_none_iff.mp hnone))] at hlink
      rw [List.eq_of_mem_replicate (List.mem_of_getElem? hlink)]
      exact Link.traces_init st s'

/-- A step at connection `c`. -/
theorem WireTraced.set (h : s.WireTraced st) (hgrows : Grows s s') {c : Nat} {link' : Link}
    (hholds : s'.client.HoldsOnly (Serialized st s'))
    (hprocessed : ∀ invocation ∈ s'.processed, s'.Requested invocation)
    (hlinks : s'.links = s.links.set c link')
    (hlength : s'.client.connections.length = s.client.connections.length)
    (hothers : ∀ j, c ≠ j → s'.client.connections[j]? = s.client.connections[j]?)
    (hthis : ∀ k, s'.client.connections[c]? = some k → link'.Traces st s' k) :
    s'.WireTraced st where
  holds := hholds
  processed := hprocessed
  aligned := by rw [hlinks, List.length_set, hlength, h.aligned]
  links j k link hk hlink := by
    rw [hlinks] at hlink
    by_cases heq : c = j
    · subst heq
      have hlt := (List.getElem?_eq_some_iff.mp hlink).1
      rw [List.length_set] at hlt
      rw [List.getElem?_set_self hlt, Option.some.injEq] at hlink
      exact hlink ▸ hthis k hk
    · rw [List.getElem?_set_ne heq] at hlink
      rw [hothers j heq] at hk
      exact (h.links j k link hk hlink).mono hgrows

/-- A step at connection `c` outside the client. -/
theorem WireTraced.setLink (h : s.WireTraced st) (hgrows : Grows s s') {c : Nat}
    {link' : Link} (hclient : s'.client = s.client)
    (hprocessed : ∀ invocation ∈ s'.processed, s'.Requested invocation)
    (hlinks : s'.links = s.links.set c link')
    (hthis : ∀ k, s.client.connections[c]? = some k → link'.Traces st s' k) :
    s'.WireTraced st := by
  refine h.set hgrows ?_ hprocessed hlinks (by rw [hclient]) (fun _ _ => by rw [hclient]) ?_
  · exact hclient ▸ h.holds.mono fun _ => .mono hgrows
  · exact hclient ▸ hthis

/-- A caller who gives a message to the sender registers no connection. -/
theorem links_send {bytes : Bytes} {id : Option MessageID} {client : Client Bytes}
    (hclient : s.client.step st.clientParser (.send bytes id) = some client) :
    s.links = s.links ++
      List.replicate (client.connections.length - s.client.connections.length) ({} : Link) := by
  cases hclient
  show s.links = s.links ++
    List.replicate (s.client.connections.length - s.client.connections.length) _
  rw [Nat.sub_self, List.replicate_zero, List.append_nil]

/-- The processor has returned to a routine of the server, or has thrown. -/
theorem WireTraced.process (h : s.WireTraced st) {c i : Nat} {link : Link}
    {r : Servers.Routine Bytes} {invocation : Invocation} {a : ServerAction Bytes}
    {server : ServerConnection Bytes} (hlink : s.links[c]? = some link)
    (hr : link.server.routines[i]? = some r) (hpc : r.pc.invocation = some invocation)
    (hown : ∀ e, a ≠ .context e)
    (hanswer : ∀ (j : Nat) (r' : Servers.Routine Bytes) request response,
      a = .answer j (some response) → link.server.routines[j]? = some r' →
      r'.pc = .call request →
        Returned st { s with processed := s.processed ++ [invocation] } response)
    (hsteps : ServerConnection.Steps st.serverParser link.server a server) :
    ({ s with processed := s.processed ++ [invocation] }.setLink c
      { link with server }).WireTraced st := by
  have hgrows : Grows s { s with processed := s.processed ++ [invocation] } :=
    ⟨fun _ _ => id, List.prefix_rfl, List.prefix_rfl, List.prefix_append _ _⟩
  have hrequested : s.Requested invocation := by
    obtain ⟨k, htraces⟩ := h.traces (List.mem_of_getElem? hlink)
    exact htraces.holds.running r (List.mem_of_getElem? hr) invocation hpc
  have hgrows' : Grows s ({ s with processed := s.processed ++ [invocation] }.setLink c
      { link with server }) := ⟨hgrows.requests, hgrows.sent, hgrows.notified, hgrows.processed⟩
  refine h.setLink hgrows' rfl (fun x hx => ?_) rfl fun k hk => ?_
  · rcases List.mem_append.mp hx with hx | hx
    · exact (h.processed x hx).mono hgrows'
    · rw [List.mem_singleton.mp hx]
      exact hrequested.mono hgrows'
  · have htraces := ((h.links c k link hk hlink).mono hgrows).serverStep hown hanswer hsteps
    exact htraces.mono ⟨fun _ _ => id, List.prefix_rfl, List.prefix_rfl, List.prefix_rfl⟩

theorem WireTraced.step {a : Action} (h : s.WireTraced st) (halone : s.writesAlone a = true)
    (hsteps : Steps st s a s') : s'.WireTraced st := by
  have hgrows := hsteps.grows
  have hprocessed : ∀ invocation ∈ s.processed, s'.Requested invocation :=
    fun invocation hmem => (h.processed invocation hmem).mono hgrows
  cases hsteps with
  | asyncCall | calls | notifyThrown => exact h.congr hgrows rfl rfl rfl
  | sent hasked hcreate _ hbytes hclient =>
    refine h.client hgrows (Client.steps_of_step hclient) nofun (fun m id ha => ?_) ?_ rfl
    · cases ha
      exact .request (List.mem_append_right _ (List.mem_singleton_self _))
        (requestOf_eq_some.mpr ⟨_, _, _, hasked, hcreate, rfl⟩) hbytes
    · exact links_send hclient
  | notified hbytes hclient =>
    refine h.client hgrows (Client.steps_of_step hclient) nofun (fun m id ha => ?_) ?_ rfl
    · cases ha
      exact .notification (List.mem_append_right _ (List.mem_singleton_self _)) hbytes
    · exact links_send hclient
  | @client a client hown hclient =>
    refine h.client hgrows (Client.steps_of_step hclient) ?_ (fun m id ha => ?_) rfl rfl
    · rintro c e rfl
      cases hown
    · subst ha
      cases hown
  | @clientContext c e k link toServer toClient client hk hlink harrived hsends hreceives hclient =>
    have hclientSteps := Client.steps_of_step hclient
    have hholds := h.holds.step (fun m id ha => by cases ha) hclientSteps
    cases hclientSteps with
    | @context _ _ k' r _ hk' hr =>
    obtain rfl : k' = k := Option.some.inj (hk'.symm.trans hk)
    have hconnections : (s.client.deliver c r).connections =
        s.client.connections.set c r.connection := rfl
    refine h.set hgrows (hholds.mono fun _ => .mono hgrows) hprocessed rfl ?_ (fun j hj => ?_)
      fun k'' hk'' => ?_
    · exact List.length_set
    · exact List.getElem?_set_ne hj
    · have hlt := (List.getElem?_eq_some_iff.mp hk).1
      replace hk'' : (s.client.connections.set c r.connection)[c]? = some k'' := hk''
      rw [List.getElem?_set_self hlt, Option.some.injEq] at hk''
      subst hk''
      refine ((h.links c k' link hk hlink).clientContext hsends hreceives
        (h.holds.tasks c k' hk) (fun i calls entry he htask => ?_) hr).mono hgrows
      subst he
      exact writes_eq_nil halone hk htask
  | @received c link response arrived calls hlink harrived =>
    refine h.setLink hgrows rfl hprocessed rfl fun k hk => ?_
    have htraces := (h.links c k link hk hlink).mono hgrows
    exact { htraces with
      arrived := fun m hm => htraces.arrived (harrived ▸ List.mem_cons_of_mem _ hm) }
  | @ignored c link m arrived hlink harrived =>
    refine h.setLink hgrows rfl hprocessed rfl fun k hk => ?_
    have htraces := (h.links c k link hk hlink).mono hgrows
    exact { htraces with
      arrived := fun m hm => htraces.arrived (harrived ▸ List.mem_cons_of_mem _ hm) }
  | @serverContext c e link toClient toServer server hlink hsends hreceives hserver =>
    refine h.setLink hgrows rfl hprocessed rfl fun k hk => ?_
    have hserverSteps := ServerConnection.steps_of_step hserver
    exact ((h.links c k link hk hlink).serverContext hsends hreceives hserverSteps).mono hgrows
  | @server c a link server hlink hown hserver =>
    refine h.setLink hgrows rfl hprocessed rfl fun k hk => ?_
    have hserverSteps := ServerConnection.steps_of_step hserver
    refine ((h.links c k link hk hlink).serverStep ?_ ?_ hserverSteps).mono hgrows
    · rintro e rfl
      cases hown
    · rintro i r request response rfl
      cases hown
  | @called c i link r request server hlink hr hpc hserver =>
    refine h.process hlink hr (by rw [hpc]; rfl) (fun e he => by cases he)
      (fun j r' request' response ha _ _ => ?_) (ServerConnection.steps_of_step hserver)
    rw [ServerAction.answer.injEq] at ha
    exact ⟨request, returnedFor_call ha.2⟩
  | notifiedMethod hlink hr hpc hserver =>
    exact h.process hlink hr (by rw [hpc]; rfl) (fun e he => by cases he)
      (fun j r' request response ha _ _ => by cases ha) (ServerConnection.steps_of_step hserver)
  | @toServer c i n link toServer hlink htransfer =>
    refine h.setLink hgrows rfl hprocessed rfl fun k hk => ?_
    exact ((h.links c k link hk hlink).transferToServer htransfer).mono hgrows
  | @toClient c i n link toClient hlink htransfer =>
    refine h.setLink hgrows rfl hprocessed rfl fun k hk => ?_
    exact ((h.links c k link hk hlink).transferToClient htransfer).mono hgrows

/-! ## Whole runs -/

/-- The processor has only been called for what a caller has asked for, and a future that holds a
result has got what it has returned for the call of this future. -/
structure AnswersOwn (st : Setting) (s : Session) : Prop where
  processed : ∀ invocation ∈ s.processed, s.Requested invocation
  own : ∀ (i : Nat) asked request promise f result, s.asked[i]? = some asked →
    s.calls.creates[i]? = some (.returned request promise) →
    s.calls.futures[promise]? = some f → f.result = some result →
      s.Answered st (asked.request request.id) result

/-- Before the IDs wrap around, an ID names one call. -/
theorem CallsTraced.eq_of_id (h : s.CallsTraced st first) (hids : s.calls.generated ≤ 2 ^ 32)
    {i j : Nat} {create create' : Create} {request request' : Clients.Request}
    (hi : s.calls.creates[i]? = some create) (hj : s.calls.creates[j]? = some create')
    (hrequest : create.request = some request) (hrequest' : create'.request = some request')
    (hsame : request.id = request'.id) : i = j := by
  obtain ⟨hlt, hid⟩ := h.numbered.creates _ (List.mem_of_getElem? hi) request hrequest
  obtain ⟨hlt', hid'⟩ := h.numbered.creates _ (List.mem_of_getElem? hj) request' hrequest'
  have hturn := CallList.requestID_inj first hlt hlt' hids (hid.symm.trans (hsame.trans hid'))
  refine h.turns i j request request' ?_ ?_ hturn
  · rw [hi, Option.bind_some, hrequest]
  · rw [hj, Option.bind_some, hrequest']

/-- A future with a result has been completed by a response. -/
theorem CallsTraced.completion (h : s.CallsTraced st first) {request : Clients.Request}
    {promise : Nat} {f : Clients.CallFutureImpl CallResult} {result : CallResult}
    (hregistered : s.calls.registered[promise]? = some request)
    (hf : s.calls.futures[promise]? = some f) (hresult : f.result = some result) :
    ∃ r, ⟨promise, .response r⟩ ∈ s.calls.completions ∧ r.result = result := by
  have hcompleted : promise ∈ s.calls.completed := by
    by_contra hwaiting
    have hlisted := h.registry.waiting promise request hregistered hwaiting
    have hunset := (h.registry.listed request.id promise hlisted).2
    rw [hf, Option.some.injEq] at hunset
    rw [hunset] at hresult
    cases hresult
  obtain ⟨c, hc, rfl⟩ := List.mem_map.mp hcompleted
  have houtcome := h.registry.outcomes c hc
  rw [hf, Option.some.injEq] at houtcome
  rw [houtcome] at hresult
  obtain ⟨promise, cause⟩ := c
  cases cause with
  | response r => exact ⟨r, hc, Option.some.inj hresult⟩
  | timeout => cases hresult

theorem CallsTraced.answersOwn (h : s.CallsTraced st first) (hwire : s.WireTraced st)
    (hmethods : ∀ n, (st.methods n).IsFunctional st.codec.lib)
    (hids : s.calls.generated ≤ 2 ^ 32) : s.AnswersOwn st where
  processed := hwire.processed
  own i asked request promise f result hasked hcreate hf hresult := by
    have hregistered :=
      h.registry.references _ (List.mem_of_getElem? hcreate) request promise rfl
    obtain ⟨r, hc, rfl⟩ := h.completion hregistered hf hresult
    -- the response names this call
    obtain ⟨request', hregistered', hname⟩ := h.registry.answered _ hc r rfl
    obtain rfl : request = request' := Option.some.inj (hregistered.symm.trans hregistered')
    -- the processor has returned it for a request with the same ID
    obtain ⟨executed, result, hm, hanswer⟩ := h.answered hmethods _ hc r rfl
    rw [ParsedMessage.response.injEq, ParsedResponse.mk.injEq] at hm
    obtain ⟨hsame, rfl⟩ := hm
    have hanswered : s.Answered st executed r.result := hanswer
    obtain ⟨n, -, hn, -⟩ := hanswer
    have hrequested := hwire.processed _ (List.mem_of_getElem? hn)
    generalize hexecuted : Invocation.request executed = invocation at hrequested
    cases hrequested with
    | notification => cases hexecuted
    | @request j _ hsent hrequest =>
      cases hexecuted
      obtain ⟨asked', create, promise', hasked', hcreate', rfl⟩ := requestOf_eq_some.mp hrequest
      obtain rfl : i = j := h.eq_of_id hids hcreate hcreate' rfl rfl (hname.trans hsame)
      rw [hcreate, Option.some.injEq, Clients.Create.returned.injEq] at hcreate'
      obtain rfl : asked = asked' := Option.some.inj (hasked.symm.trans hasked')
      exact hcreate'.1 ▸ hanswered

end Session

/-- While no connection of the client writes twice at once and the IDs have not wrapped around, the
callers get the answers to their own calls. -/
theorem answersOwn_of_run (st : Setting) (first : MessageID)
    (hmethods : ∀ n, (st.methods n).IsFunctional st.codec.lib) (schedule : List Action)
    (s : Session)
    (halone : (sessionMachine st first).Meets (fun s a _ => s.writesAlone a = true)
      (sessionMachine st first).init schedule)
    (hrun : (sessionMachine st first).run (sessionMachine st first).init schedule = some s)
    (hids : s.calls.generated ≤ 2 ^ 32) : s.AnswersOwn st := by
  have hkeep : ∀ s a s', s.CallsTraced st first ∧ s.WireTraced st →
      s.writesAlone a = true → (sessionMachine st first).step s a = some s' →
      s'.CallsTraced st first ∧ s'.WireTraced st := by
    intro s a s' ⟨hcalls, hwire⟩ hok hstep
    have hsteps := Session.steps_of_step hstep
    exact ⟨hcalls.step hwire hsteps, hwire.step hok hsteps⟩
  have hinit := And.intro (Session.callsTraced_init st first) (Session.wireTraced_init st first)
  obtain ⟨hcalls, hwire⟩ := Machine.run_invariant hkeep hinit halone hrun
  exact hcalls.answersOwn hwire hmethods hids

/-- A server with one method, which returns its parameter. -/
def echoSetting : Setting where
  codec := formatCodec
  clientBuffer := 1024
  serverBuffer := 1024
  methods _ := echoMethods

/-- The first connection is registered, and both its ends wait for bytes. -/
def connectedSchedule : List Action :=
  List.flatten [[.client .connected], List.replicate 5 (.client (.routine 0)),
    [.client (.context 0 (.task 0 {})), .server 0 (.context (.task 0 {}))]]

/-- The request of `echo(true)` is written in two pieces; that of `echo(false)` waits. -/
def requestedSchedule : List Action :=
  List.flatten [[.asyncCall ⟨text "echo", [.boolean true]⟩], List.replicate 5 (.create 0),
    [.send 0], List.replicate 7 (.client (.routine 1)),
    [.asyncCall ⟨text "echo", [.boolean false]⟩], List.replicate 5 (.create 1),
    [.send 1], List.replicate 2 (.client (.routine 2)),
    [.client (.context 0 (.task 0 {})), .toServer 0 0 3,
      .server 0 (.context (.read 0 none [0x94, 0x00] {})), .toServer 0 0 7,
      .server 0 (.context (.read 0 none [0x07, 0xa4, 101, 99, 104, 111, 0x91, 0xc3] {}))]]

/-- The second request follows, and the processor returns from it first. -/
def echoSchedule : List Action :=
  List.flatten [connectedSchedule, requestedSchedule,
    [.client (.context 0 (.write 0 none))], List.replicate 8 (.client (.routine 3)),
    [.client (.context 0 (.task 0 {})), .toServer 0 0 10,
      .server 0 (.context
        (.read 0 none [0x94, 0x00, 0x08, 0xa4, 101, 99, 104, 111, 0x91, 0xc2] {})),
      .client (.context 0 (.write 0 none))], List.replicate 5 (.client (.routine 4)),
    [.server 0 (.dispatch 0), .server 0 (.dispatch 0), .process 0 1],
    List.replicate 4 (.server 0 (.routine 1)),
    [.process 0 0], List.replicate 2 (.server 0 (.routine 0)),
    [.server 0 (.context (.task 0 {})), .toClient 0 0 5,
      .client (.context 0 (.read 0 none [0x94, 0x01, 0x08, 0xc0, 0xc2] {})), .receive 0,
      .server 0 (.context (.write 0 none))], List.replicate 4 (.server 0 (.routine 2)),
    [.server 0 (.context (.task 0 {})), .toClient 0 0 5,
      .client (.context 0 (.read 0 none [0x94, 0x01, 0x07, 0xc0, 0xc3] {})), .receive 0]]

theorem isFunctional_echoMethods : echoMethods.IsFunctional formatLibrary := by
  intro method hmethod
  rw [List.mem_singleton.mp hmethod]
  exact .functional echo

/-- The object that a future has got from a call that has returned. -/
def returnedBytes (f : Clients.CallFutureImpl CallResult) : Option Bytes :=
  f.result.bind fun result => if result.isError then none else some result.object.encode

theorem answersOwn_echoSchedule :
    ∃ s, (sessionMachine echoSetting 7).run (sessionMachine echoSetting 7).init echoSchedule =
        some s ∧ s.calls.completed = [1, 0] ∧
      s.calls.futures.map returnedBytes = [some [0xc3], some [0xc2]] ∧
      s.AnswersOwn echoSetting := by
  have hrun : ((sessionMachine echoSetting 7).run (sessionMachine echoSetting 7).init
      echoSchedule).map (fun s =>
        (s.calls.completed, s.calls.futures.map returnedBytes, s.calls.generated)) =
      some ([1, 0], [some [0xc3], some [0xc2]], 2) := by
    decide +kernel
  obtain ⟨s, hs, hends⟩ := Option.map_eq_some_iff.mp hrun
  simp only [Prod.mk.injEq] at hends
  obtain ⟨hcompleted, hresults, hgenerated⟩ := hends
  refine ⟨s, hs, hcompleted, hresults, answersOwn_of_run echoSetting 7
    (fun _ => isFunctional_echoMethods) echoSchedule s (by decide +kernel) hs ?_⟩
  rw [hgenerated]
  decide

end MsgpackRpc.Rpc
