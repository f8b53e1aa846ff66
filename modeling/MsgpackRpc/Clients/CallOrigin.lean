import MsgpackRpc.Clients.CallRegistry

/-!
# The requests of the calls

Each `create` generates one request and keeps it to its end, so what is registered is named after
the turn in which its ID was generated.
-/

namespace MsgpackRpc.Clients

variable {ρ : Type}

/-- The request that `create` has generated. -/
def Create.request : Create → Option Request
  | .serialize request | .emplace request => some request
  | .setTimeout request _ | .future request _ | .returned request _ => some request
  | .generate | .thrown | .dangling => none

namespace CallList

/-- What a step does to the requests. -/
inductive Origins (s s' : CallList ρ) : Prop where
  | kept (hcreates : ∀ (i : Nat) (create : Create), s'.creates[i]? = some create →
        ∀ request, create.request = some request →
          ∃ before, s.creates[i]? = some before ∧ before.request = some request)
      (hregistered : ∀ request ∈ s'.registered, request ∈ s.registered ∨
        ∃ create ∈ s.creates, create.request = some request)
      (hgenerated : s'.generated = s.generated) (hnextId : s'.nextId = s.nextId)
  | generated (i : Nat) (hi : s.creates[i]? = some .generate)
      (hcreates : s'.creates =
        s.creates.set i (.serialize { seq := s.generated, id := s.nextId }))
      (hregistered : s'.registered = s.registered) (hgenerated : s'.generated = s.generated + 1)
      (hnextId : s'.nextId = s.nextId + 1)

theorem Steps.origins {s s' : CallList ρ} {a : CallListAction ρ} (h : Steps s a s') :
    Origins s s' := by
  -- a `create` that goes on keeps its request, or drops it
  have kept {i : Nat} {before : Create} (create' : Create) {t : CallList ρ}
      (hi : s.creates[i]? = some before)
      (hcreate : ∀ request, create'.request = some request → before.request = some request)
      (hcreates : t.creates = s.creates.set i create')
      (hregistered : ∀ request ∈ t.registered, request ∈ s.registered ∨
        ∃ create ∈ s.creates, create.request = some request)
      (hgenerated : t.generated = s.generated) (hnextId : t.nextId = s.nextId) : Origins s t := by
    refine .kept (fun j create hj request hrequest => ?_) hregistered hgenerated hnextId
    rw [hcreates] at hj
    by_cases heq : i = j
    · rw [← heq, List.getElem?_set_self (List.getElem?_eq_some_iff.mp hi).1,
        Option.some.injEq] at hj
      exact ⟨before, heq ▸ hi, hcreate request (hj ▸ hrequest)⟩
    · rw [List.getElem?_set_ne heq] at hj
      exact ⟨create, hj, hrequest⟩
  have same {t : CallList ρ} (hcreates : t.creates = s.creates)
      (hregistered : t.registered = s.registered) (hgenerated : t.generated = s.generated)
      (hnextId : t.nextId = s.nextId) : Origins s t := by
    refine .kept (fun j create hj request hrequest => ?_) (fun request hmem => ?_) hgenerated
      hnextId
    · exact ⟨create, hcreates ▸ hj, hrequest⟩
    · exact .inl (hregistered ▸ hmem)
  cases h with
  | create =>
    refine .kept (fun j create hj request hrequest => ?_) (fun _ => .inl) rfl rfl
    rw [List.getElem?_append] at hj
    split at hj
    · exact ⟨create, hj, hrequest⟩
    · rw [List.mem_singleton.mp (List.mem_of_getElem? hj)] at hrequest
      cases hrequest
  | generated hi => exact .generated _ hi rfl rfl rfl rfl
  | serialized hi => exact kept (.emplace _) hi (fun _ => id) rfl (fun _ => .inl) rfl rfl
  | @emplaced i request hi =>
    refine kept (.setTimeout _ _) hi (fun _ => id) rfl (fun x hx => ?_) rfl rfl
    rcases List.mem_append.mp hx with hx | hx
    · exact .inl hx
    · rw [List.mem_singleton.mp hx]
      exact .inr ⟨_, List.mem_of_getElem? hi, rfl⟩
  | timerStarted hi => exact kept (.future _ _) hi (fun _ => id) rfl (fun _ => .inl) rfl rfl
  | returned hi => exact kept (.returned _ _) hi (fun _ => id) rfl (fun _ => .inl) rfl rfl
  | serializationFailed hi | duplicate hi => exact kept .thrown hi nofun rfl (fun _ => .inl) rfl rfl
  | dangling hi =>
    rcases hi with hi | hi <;> exact kept .dangling hi nofun rfl (fun _ => .inl) rfl rfl
  | ignored ha | completed ha => cases ha <;> exact same rfl rfl rfl rfl
  | expired => exact same rfl rfl rfl rfl

/-- Every request has the ID of its turn. -/
structure Numbered (first : MessageID) (s : CallList ρ) : Prop where
  nextId : s.nextId = requestID first s.generated
  creates : ∀ create ∈ s.creates, ∀ request, create.request = some request →
    request.seq < s.generated ∧ request.id = requestID first request.seq
  registered : ∀ request ∈ s.registered,
    request.seq < s.generated ∧ request.id = requestID first request.seq

theorem numbered_init (first : MessageID) : Numbered first ({ nextId := first } : CallList ρ) where
  nextId := (requestID_zero first).symm
  creates := nofun
  registered := nofun

theorem Numbered.step {first : MessageID} {s s' : CallList ρ} {a : CallListAction ρ}
    (h : s.Numbered first) (hsteps : Steps s a s') : s'.Numbered first := by
  cases hsteps.origins with
  | kept hcreates hregistered hgenerated hnextId =>
    refine ⟨?_, fun create hcreate request hrequest => ?_, fun request hmem => ?_⟩
    · rw [hnextId, hgenerated]
      exact h.nextId
    · obtain ⟨i, hi⟩ := List.getElem?_of_mem hcreate
      obtain ⟨before, hbefore, hsame⟩ := hcreates i create hi request hrequest
      rw [hgenerated]
      exact h.creates before (List.mem_of_getElem? hbefore) request hsame
    · rw [hgenerated]
      rcases hregistered request hmem with hold | ⟨create, hcreate, hrequest⟩
      · exact h.registered request hold
      · exact h.creates create hcreate request hrequest
  | generated i hi hcreates hregistered hgenerated hnextId =>
    refine ⟨?_, fun create hcreate request hrequest => ?_, fun request hmem => ?_⟩
    · rw [hnextId, hgenerated, h.nextId, requestID_succ]
    · rw [hgenerated]
      rw [hcreates] at hcreate
      rcases List.mem_or_eq_of_mem_set hcreate with hcreate | rfl
      · obtain ⟨hlt, hid⟩ := h.creates create hcreate request hrequest
        exact ⟨Nat.lt_succ_of_lt hlt, hid⟩
      · cases hrequest
        exact ⟨Nat.lt_succ_self _, h.nextId⟩
    · rw [hgenerated]
      obtain ⟨hlt, hid⟩ := h.registered request (hregistered ▸ hmem)
      exact ⟨Nat.lt_succ_of_lt hlt, hid⟩

/-- A `create` that has returned stays as it is. -/
theorem Steps.keeps_returned {s s' : CallList ρ} {a : CallListAction ρ} (h : Steps s a s') {i : Nat}
    {request : Request} {promise : Nat} (hi : s.creates[i]? = some (.returned request promise)) :
    s'.creates[i]? = some (.returned request promise) := by
  have kept {j : Nat} {before : Create} (create' : Create) (hj : s.creates[j]? = some before)
      (hne : before ≠ .returned request promise) :
      (s.creates.set j create')[i]? = some (.returned request promise) := by
    by_cases heq : j = i
    · rw [heq, hi, Option.some.injEq] at hj
      exact absurd hj.symm hne
    · rw [List.getElem?_set_ne heq, hi]
  cases h with
  | create => exact List.getElem?_of_prefix (List.prefix_append _ _) hi
  | generated hj | serialized hj | emplaced hj | timerStarted hj | returned hj
  | serializationFailed hj | duplicate hj => exact kept _ hj nofun
  | dangling hj => rcases hj with hj | hj <;> exact kept _ hj nofun
  | ignored ha | completed ha => cases ha <;> exact hi
  | expired => exact hi

/-- No two calls have generated their requests at the same turn. -/
def DistinctTurns (s : CallList ρ) : Prop :=
  ∀ (i j : Nat) (request request' : Request),
    s.creates[i]?.bind Create.request = some request →
    s.creates[j]?.bind Create.request = some request' → request.seq = request'.seq → i = j

theorem DistinctTurns.step {first : MessageID} {s s' : CallList ρ} {a : CallListAction ρ}
    (h : s.DistinctTurns) (hnumbered : s.Numbered first) (hsteps : Steps s a s') :
    s'.DistinctTurns := by
  cases hsteps.origins with
  | kept hcreates =>
    have hbefore {i : Nat} {request : Request}
        (hi : s'.creates[i]?.bind Create.request = some request) :
        s.creates[i]?.bind Create.request = some request := by
      obtain ⟨create, hcreate, hrequest⟩ := Option.bind_eq_some_iff.mp hi
      obtain ⟨before, hbefore, hsame⟩ := hcreates i create hcreate request hrequest
      rw [hbefore, Option.bind_some, hsame]
    exact fun i j request request' hi hj => h i j request request' (hbefore hi) (hbefore hj)
  | generated n hn hcreates =>
    -- the new turn comes after all the others
    have hbefore {i : Nat} {request : Request} (hne : n ≠ i)
        (hi : s'.creates[i]?.bind Create.request = some request) :
        s.creates[i]?.bind Create.request = some request ∧ request.seq < s.generated := by
      rw [hcreates, List.getElem?_set_ne hne] at hi
      obtain ⟨create, hcreate, hrequest⟩ := Option.bind_eq_some_iff.mp hi
      exact ⟨hi, (hnumbered.creates create (List.mem_of_getElem? hcreate) request hrequest).1⟩
    have hnew {request : Request} (hi : s'.creates[n]?.bind Create.request = some request) :
        request.seq = s.generated := by
      rw [hcreates, List.getElem?_set_self (List.getElem?_eq_some_iff.mp hn).1] at hi
      cases hi
      rfl
    intro i j request request' hi hj hseq
    by_cases hin : n = i
    · by_cases hjn : n = j
      · exact hin.symm.trans hjn
      · subst hin
        have hlt := (hbefore hjn hj).2
        rw [← hseq, hnew hi] at hlt
        exact absurd hlt (Nat.lt_irrefl _)
    · by_cases hjn : n = j
      · subst hjn
        have hlt := (hbefore hin hi).2
        rw [hseq, hnew hj] at hlt
        exact absurd hlt (Nat.lt_irrefl _)
      · exact h i j request request' (hbefore hin hi).1 (hbefore hjn hj).1 hseq

/-- A call is completed by the response that is being handled, or by a timer. -/
theorem Steps.completion {s s' : CallList ρ} {a : CallListAction ρ} (h : Steps s a s')
    {c : Completion ρ} (hc : c ∈ s'.completions) :
    c ∈ s.completions ∨ (∃ r, a = .handle r ∧ c.cause = .response r) ∨
      ∃ promise, c.cause = .timeout promise := by
  cases h.effect with
  | unchanged _ _ _ hcompletions | emplaced _ _ _ _ _ hcompletions =>
    exact .inl (hcompletions ▸ hc)
  | completed t id promise cause f f' ha _ _ _ _ _ _ hcompletions =>
    rw [hcompletions] at hc
    rcases List.mem_append.mp hc with hc | hc
    · exact .inl hc
    · rw [List.mem_singleton.mp hc]
      cases ha with
      | handle response => exact .inr (.inl ⟨response, rfl, rfl⟩)
      | onTimeout => exact .inr (.inr ⟨_, rfl⟩)

/-- A step lists a call only under the ID of a request that waits to be emplaced. -/
theorem Steps.unlisted {s s' : CallList ρ} {a : CallListAction ρ} (h : Steps s a s')
    {id : MessageID} (hid : s.promiseOf id = none) :
    s'.promiseOf id = none ∨
      ∃ (i : Nat) (request : Request), s.creates[i]? = some (.emplace request) ∧
        request.id = id := by
  cases h with
  | @emplaced i request hi =>
    by_cases heq : request.id = id
    · exact .inr ⟨i, request, hi, heq⟩
    · refine .inl ?_
      have hupdate :=
        congrFun (promiseOf_update_some s request.id { promise := s.futures.length }) id
      exact hupdate.trans ((Function.update_of_ne (Ne.symm heq) _ _).trans hid)
  | timerStarted _ hlist => exact .inl ((congrFun (promiseOf_update hlist true) id).trans hid)
  | expired hlist => exact .inl ((congrFun (promiseOf_update hlist false) id).trans hid)
  | ignored ha => exact .inl (by cases ha <;> exact hid)
  | @completed a t id' cause call f f' ha =>
    have hupdate := congrFun (promiseOf_update_none s id') id
    refine .inl (hupdate.trans ?_)
    by_cases heq : id = id'
    · rw [heq, Function.update_self]
    · rw [Function.update_of_ne heq, hid]
  | _ => exact .inl hid

/-- After a response has been handled, no call is listed under its ID. -/
theorem Steps.handled {s s' : CallList ρ} {response : ParsedResponse ρ}
    (h : Steps s (.handle response) s') : s'.promiseOf response.id = none := by
  cases h with
  | ignored ha hlist =>
    cases ha
    rw [promiseOf, hlist, Option.map_none]
  | completed ha =>
    cases ha
    have hupdate := congrFun (promiseOf_update_none s response.id) response.id
    exact hupdate.trans (Function.update_self _ _ _)

theorem Steps.generated_le {s s' : CallList ρ} {a : CallListAction ρ} (h : Steps s a s') :
    s.generated ≤ s'.generated := by
  cases h.origins with
  | kept _ _ hgenerated => exact Nat.le_of_eq hgenerated.symm
  | generated _ _ _ _ hgenerated => omega

/-- A response generates no ID. -/
theorem Steps.generated_handle {s s' : CallList ρ} {response : ParsedResponse ρ}
    (h : Steps s (.handle response) s') : s'.generated = s.generated := by
  cases h with
  | ignored ha | completed ha =>
    cases ha
    rfl

/-- Among fewer than `2 ^ 32` calls an ID names one. -/
theorem requestID_inj (first : MessageID) {n m bound : Nat} (hn : n < bound) (hm : m < bound)
    (hbound : bound ≤ 2 ^ 32) (h : requestID first n = requestID first m) : n = m := by
  rcases Nat.lt_trichotomy n m with hlt | heq | hlt
  · exact absurd h (requestID_ne first hlt (by omega))
  · exact heq
  · exact absurd h.symm (requestID_ne first hlt (by omega))

end CallList

end MsgpackRpc.Clients
