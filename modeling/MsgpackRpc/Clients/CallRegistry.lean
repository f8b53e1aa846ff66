import MsgpackRpc.Clients.CallList
import MsgpackRpc.Lib.Update

/-!
# Registered and completed calls

What `list_` and the futures hold after any run: every registered call is in the list until it is
completed, and only then its future is set.
-/

namespace MsgpackRpc.Clients

variable {ρ : Type}

/-- The call whose reference or future `create` holds: its request and its promise. -/
def Create.reference : Create → Option (Request × Nat)
  | .setTimeout request promise | .future request promise | .returned request promise =>
      some (request, promise)
  | _ => none

namespace CallList

/-- The promise of the entry under an ID. -/
def promiseOf (s : CallList ρ) (id : MessageID) : Option Nat := (s.list id).map Call.promise

/-- The call with promise `promise` was emplaced under `id`. -/
def Registered (s : CallList ρ) (id : MessageID) (promise : Nat) : Prop :=
  ∃ request, s.registered[promise]? = some request ∧ request.id = id

/-- The promises of the calls that `set` was called for, once for each time. -/
def completed (s : CallList ρ) : List Nat := s.completions.map Completion.promise

/-- The ID of the response or of the timeout that an action handles. -/
def answers (s : CallList ρ) : CallListAction ρ → Option MessageID
  | .handle response => some response.id
  | .onTimeout j => s.timeouts[j]?.map Timeout.id
  | _ => none

theorem Answers.answers_eq {s t : CallList ρ} {a : CallListAction ρ} {id : MessageID}
    {cause : Cause ρ} (h : Answers s a t id cause) : s.answers a = some id := by
  cases h with
  | handle => rfl
  | onTimeout hj => rw [answers, hj, Option.map_some]

theorem promiseOf_eq {s : CallList ρ} {id : MessageID} {call : Call}
    (h : s.list id = some call) : s.promiseOf id = some call.promise := by
  rw [promiseOf, h, Option.map_some]

/-- Starting or stopping a timer changes no promise. -/
theorem promiseOf_update {s : CallList ρ} {id : MessageID} {call : Call}
    (h : s.list id = some call) (timerArmed : Bool) :
    (fun id' => (Function.update s.list id (some { call with timerArmed }) id').map Call.promise) =
      s.promiseOf := by
  funext id'
  by_cases heq : id' = id
  · rw [heq, Function.update_self, promiseOf_eq h, Option.map_some]
  · rw [Function.update_of_ne heq, promiseOf]

theorem promiseOf_update_some (s : CallList ρ) (id : MessageID) (call : Call) :
    (fun id' => (Function.update s.list id (some call) id').map Call.promise) =
      Function.update s.promiseOf id (some call.promise) := by
  funext id'
  by_cases heq : id' = id
  · rw [heq, Function.update_self, Function.update_self, Option.map_some]
  · rw [Function.update_of_ne heq, Function.update_of_ne heq, promiseOf]

theorem promiseOf_update_none (s : CallList ρ) (id : MessageID) :
    (fun id' => (Function.update s.list id none id').map Call.promise) =
      Function.update s.promiseOf id none := by
  funext id'
  by_cases heq : id' = id
  · rw [heq, Function.update_self, Function.update_self, Option.map_none]
  · rw [Function.update_of_ne heq, Function.update_of_ne heq, promiseOf]

/-- What a step does to the entries and the futures. -/
inductive Effect (s : CallList ρ) (a : CallListAction ρ) (s' : CallList ρ) : Prop where
  | unchanged (hlist : s'.promiseOf = s.promiseOf) (hfutures : s'.futures = s.futures)
      (hregistered : s'.registered = s.registered) (hcompletions : s'.completions = s.completions)
  | emplaced (request : Request) (hfree : s.promiseOf request.id = none)
      (hlist : s'.promiseOf = Function.update s.promiseOf request.id (some s.futures.length))
      (hfutures : s'.futures = s.futures ++ [({} : CallFutureImpl ρ)])
      (hregistered : s'.registered = s.registered ++ [request])
      (hcompletions : s'.completions = s.completions)
  | completed (t : CallList ρ) (id : MessageID) (promise : Nat) (cause : Cause ρ)
      (f f' : CallFutureImpl ρ) (ha : Answers s a t id cause)
      (hlisted : s.promiseOf id = some promise) (hf : s.futures[promise]? = some f)
      (hset : cause.set f = .ok f')
      (hlist : s'.promiseOf = Function.update s.promiseOf id none)
      (hfutures : s'.futures = s.futures.set promise f')
      (hregistered : s'.registered = s.registered)
      (hcompletions : s'.completions = s.completions ++ [⟨promise, cause⟩])

theorem Steps.effect {s s' : CallList ρ} {a : CallListAction ρ} (h : Steps s a s') :
    Effect s a s' := by
  cases h with
  | emplaced hi hlist =>
    exact .emplaced _ (by rw [promiseOf, hlist, Option.map_none]) (promiseOf_update_some s _ _) rfl
      rfl rfl
  | timerStarted hi hlist => exact .unchanged (promiseOf_update hlist true) rfl rfl rfl
  | expired hlist => exact .unchanged (promiseOf_update hlist false) rfl rfl rfl
  | ignored ha => cases ha <;> exact .unchanged rfl rfl rfl rfl
  | completed ha hlist hf hset =>
    refine .completed _ _ _ _ _ _ ha (promiseOf_eq hlist) hf hset (promiseOf_update_none s _) rfl ?_
      rfl
    cases ha <;> rfl
  | _ => exact .unchanged rfl rfl rfl rfl

/-- What every run keeps. -/
structure Registry (s : CallList ρ) : Prop where
  length : s.registered.length = s.futures.length
  listed : ∀ id promise, s.promiseOf id = some promise →
    s.Registered id promise ∧ s.futures[promise]? = some {}
  waiting : ∀ promise request, s.registered[promise]? = some request → promise ∉ s.completed →
    s.promiseOf request.id = some promise
  once : s.completed.Nodup
  outcomes : ∀ c ∈ s.completions, s.futures[c.promise]? = some c.cause.outcome
  answered : ∀ c ∈ s.completions, ∀ r, c.cause = .response r → s.Registered r.id c.promise
  references : ∀ create ∈ s.creates, ∀ request promise,
    create.reference = some (request, promise) → s.registered[promise]? = some request

theorem registry_init (first : MessageID) : Registry ({ nextId := first } : CallList ρ) where
  length := rfl
  listed _ _ := nofun
  waiting _ _ := nofun
  once := List.nodup_nil
  outcomes := nofun
  answered := nofun
  references := nofun

/-- A listed call is not completed: its future is not set. -/
theorem Registry.not_completed {s : CallList ρ} (h : s.Registry) {id : MessageID} {promise : Nat}
    (hlisted : s.promiseOf id = some promise) : promise ∉ s.completed := by
  intro hmem
  obtain ⟨c, hc, rfl⟩ := List.mem_map.mp hmem
  have hunset := (h.listed id c.promise hlisted).2
  rw [h.outcomes c hc, Option.some.injEq] at hunset
  have hset := congrArg CallFutureImpl.isSet hunset
  cases hcause : c.cause <;> simp [hcause, Cause.outcome] at hset

theorem Registry.lt_length {s : CallList ρ} (h : s.Registry) {promise : Nat}
    (hmem : promise ∈ s.completed) : promise < s.futures.length := by
  obtain ⟨c, hc, rfl⟩ := List.mem_map.mp hmem
  exact (List.getElem?_eq_some_iff.mp (h.outcomes c hc)).1

theorem Registered.unique {s : CallList ρ} {id id' : MessageID} {promise : Nat}
    (h : s.Registered id promise) (h' : s.Registered id' promise) : id = id' := by
  obtain ⟨request, hrequest, hid⟩ := h
  obtain ⟨request', hrequest', hid'⟩ := h'
  rw [hrequest, Option.some.injEq] at hrequest'
  rw [← hid, hrequest', hid']

theorem Registered.mono {s s' : CallList ρ} {id : MessageID} {promise : Nat}
    (h : s.Registered id promise) (hregistered : s.registered <+: s'.registered) :
    s'.Registered id promise := by
  obtain ⟨request, hrequest, hid⟩ := h
  exact ⟨request, List.getElem?_of_prefix hregistered hrequest, hid⟩

theorem Effect.registered_prefix {s s' : CallList ρ} {a : CallListAction ρ} (h : Effect s a s') :
    s.registered <+: s'.registered := by
  cases h with
  | unchanged _ _ hregistered => exact hregistered ▸ List.prefix_rfl
  | emplaced _ _ _ _ hregistered => rw [hregistered]; exact List.prefix_append _ _
  | completed _ _ _ _ _ _ _ _ _ _ _ _ hregistered => exact hregistered ▸ List.prefix_rfl

/-- Each reference was held before, or belongs to the call that has just been emplaced. -/
theorem Steps.reference {s s' : CallList ρ} {a : CallListAction ρ}
    (hlength : s.registered.length = s.futures.length) (h : Steps s a s') {create : Create}
    (hmem : create ∈ s'.creates) {request : Request} {promise : Nat}
    (href : create.reference = some (request, promise)) :
    (∃ create ∈ s.creates, create.reference = some (request, promise)) ∨
      s'.registered[promise]? = some request := by
  have hset {i : Nat} {create' : Create} (hmem : create ∈ s.creates.set i create')
      (hkept : create = create' →
        ∃ create ∈ s.creates, create.reference = some (request, promise)) :
      ∃ create ∈ s.creates, create.reference = some (request, promise) := by
    rcases List.mem_or_eq_of_mem_set hmem with hmem | heq
    · exact ⟨create, hmem, href⟩
    · exact hkept heq
  cases h with
  | create =>
    rcases List.mem_append.mp hmem with hmem | hmem
    · exact .inl ⟨create, hmem, href⟩
    · rw [List.mem_singleton.mp hmem] at href
      cases href
  | emplaced hi =>
    rcases List.mem_or_eq_of_mem_set hmem with hmem | rfl
    · exact .inl ⟨create, hmem, href⟩
    · -- the promise is the place of the new future, and of the new request
      cases href
      refine .inr ?_
      show (s.registered ++ [_])[s.futures.length]? = _
      rw [← hlength, List.getElem?_concat_length]
  | timerStarted hi | returned hi =>
    refine .inl (hset hmem fun heq => ?_)
    rw [heq] at href
    exact ⟨_, List.mem_of_getElem? hi, href⟩
  | ignored ha | completed ha =>
    have hsame : create ∈ s.creates := by cases ha <;> exact hmem
    exact .inl ⟨create, hsame, href⟩
  | expired => exact .inl ⟨create, hmem, href⟩
  | _ =>
    refine .inl (hset hmem fun heq => ?_)
    rw [heq] at href
    cases href

/-- A response completes the call that is registered under its ID. -/
theorem Registry.answered_step {s s' : CallList ρ} {a : CallListAction ρ} (h : s.Registry)
    (heffect : Effect s a s') :
    ∀ c ∈ s'.completions, ∀ r, c.cause = .response r → s'.Registered r.id c.promise := by
  have hprefix := heffect.registered_prefix
  cases heffect with
  | unchanged _ _ _ hcompletions | emplaced _ _ _ _ _ hcompletions =>
    rw [hcompletions]
    exact fun c hc r hcause => (h.answered c hc r hcause).mono hprefix
  | completed t id promise cause f f' ha hlisted _ _ _ _ _ hcompletions =>
    rw [hcompletions]
    intro c hc r hcause
    rcases List.mem_append.mp hc with hc | hc
    · exact (h.answered c hc r hcause).mono hprefix
    · rw [List.mem_singleton.mp hc] at hcause ⊢
      cases ha with
      | handle response =>
        cases hcause
        exact (h.listed _ promise hlisted).1.mono hprefix
      | onTimeout => cases hcause

theorem Registry.step {s s' : CallList ρ} {a : CallListAction ρ} (h : s.Registry)
    (hsteps : Steps s a s') : s'.Registry := by
  have heffect := hsteps.effect
  have hprefix := heffect.registered_prefix
  have hanswered := h.answered_step heffect
  have hreferences : ∀ create ∈ s'.creates, ∀ request promise,
      create.reference = some (request, promise) → s'.registered[promise]? = some request := by
    intro create hmem request promise href
    rcases hsteps.reference h.length hmem href with ⟨create', hmem', href'⟩ | hnew
    · exact List.getElem?_of_prefix hprefix (h.references create' hmem' request promise href')
    · exact hnew
  cases heffect with
  | unchanged hlist hfutures hregistered hcompletions =>
    have hcompleted : s'.completed = s.completed := by rw [completed, hcompletions]; rfl
    refine ⟨?_, fun id promise hlisted => ?_, ?_, ?_, ?_, hanswered, hreferences⟩
    · rw [hregistered, hfutures]
      exact h.length
    · rw [hlist] at hlisted
      rw [hfutures]
      exact ⟨(h.listed id promise hlisted).1.mono hprefix, (h.listed id promise hlisted).2⟩
    · rw [hregistered, hcompleted, hlist]
      exact h.waiting
    · rw [hcompleted]
      exact h.once
    · rw [hcompletions, hfutures]
      exact h.outcomes
  | emplaced request hfree hlist hfutures hregistered hcompletions =>
    have hcompleted : s'.completed = s.completed := by rw [completed, hcompletions]; rfl
    have hnew : s'.registered[s.futures.length]? = some request := by
      rw [hregistered, ← h.length, List.getElem?_concat_length]
    refine ⟨?_, fun id promise hlisted => ?_, fun promise request' hrequest hnot => ?_, ?_,
      fun c hc => ?_, hanswered, hreferences⟩
    · rw [hregistered, hfutures, List.length_append, List.length_append, h.length]
      rfl
    · rw [hlist] at hlisted
      by_cases heq : id = request.id
      · rw [heq, Function.update_self, Option.some.injEq] at hlisted
        subst hlisted
        refine ⟨⟨request, hnew, heq.symm⟩, ?_⟩
        rw [hfutures, List.getElem?_concat_length]
      · rw [Function.update_of_ne heq] at hlisted
        obtain ⟨hreg, hunset⟩ := h.listed id promise hlisted
        refine ⟨hreg.mono hprefix, ?_⟩
        rw [hfutures]
        exact List.getElem?_of_prefix (List.prefix_append _ _) hunset
    · -- an older call, or the one that has just been emplaced
      rw [hcompleted] at hnot
      rw [hlist]
      rw [hregistered] at hrequest
      by_cases hlt : promise < s.registered.length
      · rw [List.getElem?_append_left hlt] at hrequest
        have hwaiting := h.waiting promise request' hrequest hnot
        have hne : request'.id ≠ request.id := by
          intro heq
          rw [heq, hfree] at hwaiting
          cases hwaiting
        rw [Function.update_of_ne hne, hwaiting]
      · have hbound := (List.getElem?_eq_some_iff.mp hrequest).1
        rw [List.length_append, List.length_singleton] at hbound
        obtain rfl : promise = s.registered.length := by omega
        rw [List.getElem?_concat_length, Option.some.injEq] at hrequest
        rw [← hrequest, Function.update_self, h.length]
    · rw [hcompleted]
      exact h.once
    · rw [hcompletions] at hc
      rw [hfutures]
      exact List.getElem?_of_prefix (List.prefix_append _ _) (h.outcomes c hc)
  | completed t id promise cause f f' ha hlisted hf hset hlist hfutures hregistered hcompletions =>
    obtain ⟨hreg, hunset⟩ := h.listed id promise hlisted
    have hnot := h.not_completed hlisted
    have hcompleted : s'.completed = s.completed ++ [promise] := by
      rw [completed, hcompletions, List.map_append]
      rfl
    -- the future of a listed call is not set, so `set` takes effect
    have houtcome : f' = cause.outcome := by
      rw [hf, Option.some.injEq] at hunset
      rw [hunset, cause.set_new, Except.ok.injEq] at hset
      exact hset.symm
    have hother {promise' : Nat} (hne : promise ≠ promise') :
        s'.futures[promise']? = s.futures[promise']? := by
      rw [hfutures, List.getElem?_set_ne hne]
    refine ⟨?_, fun id' promise' hlisted' => ?_, fun promise' request hrequest hnot' => ?_, ?_,
      fun c hc => ?_, hanswered, hreferences⟩
    · rw [hregistered, hfutures, List.length_set]
      exact h.length
    · -- the entry that is still listed is another one
      rw [hlist] at hlisted'
      have hne : id' ≠ id := by
        rintro rfl
        rw [Function.update_self] at hlisted'
        cases hlisted'
      rw [Function.update_of_ne hne] at hlisted'
      obtain ⟨hreg', hunset'⟩ := h.listed id' promise' hlisted'
      refine ⟨hreg'.mono hprefix, ?_⟩
      rw [hother, hunset']
      -- a promise is registered under one ID
      rintro rfl
      exact hne (hreg'.unique hreg)
    · rw [hcompleted, List.mem_append, not_or, List.mem_singleton] at hnot'
      rw [hregistered] at hrequest
      have hwaiting := h.waiting promise' request hrequest hnot'.1
      have hne : request.id ≠ id := by
        intro heq
        rw [heq, hlisted, Option.some.injEq] at hwaiting
        exact hnot'.2 hwaiting.symm
      rw [hlist, Function.update_of_ne hne, hwaiting]
    · rw [hcompleted, List.nodup_append]
      refine ⟨h.once, List.pairwise_singleton _ _, fun x hx y hy heq => ?_⟩
      rw [List.mem_singleton.mp hy] at heq
      exact hnot (heq ▸ hx)
    · rw [hcompletions] at hc
      rcases List.mem_append.mp hc with hold | hnew
      · have hne : promise ≠ c.promise := by
          intro heq
          exact hnot (heq ▸ List.mem_map_of_mem hold)
        rw [hother hne, h.outcomes c hold]
      · rw [List.mem_singleton.mp hnew, hfutures, houtcome,
          List.getElem?_set_self (List.getElem?_eq_some_iff.mp hf).1]

end CallList

end MsgpackRpc.Clients
