import MsgpackRpc.Clients.CallRegistry

/-!
# Responses and timeouts meet their own calls

An ID comes back after `2 ^ 32` others.  As long as no request that is still waiting sees so many
later ones, IDs in use are distinct, and what carries an ID means one call.
-/

namespace MsgpackRpc.Clients

variable {ρ : Type}

/-- The request that `create` has generated and not emplaced yet. -/
def Create.pending : Create → Option Request
  | .serialize request | .emplace request => some request
  | _ => none

/-- The cause has the ID of the call or is its own timer. -/
def Cause.IsOf (id : MessageID) (promise : Nat) : Cause ρ → Prop
  | .response r => r.id = id
  | .timeout promise' => promise' = promise

namespace CallList

def pendingAt (s : CallList ρ) (i : Nat) : Option Request := s.creates[i]?.bind Create.pending

/-- The request of `promise` is waiting for its response, or a handler of its timer is queued. -/
def isWaiting (s : CallList ρ) (request : Request) (promise : Nat) : Bool :=
  s.promiseOf request.id == some promise || s.timeouts.any fun t => t.promise == promise

/-- The requests whose IDs are in use. -/
def live (s : CallList ρ) : List Request :=
  s.creates.filterMap Create.pending ++
    (s.registered.zipIdx.filter fun (request, promise) => s.isWaiting request promise).map Prod.fst

def generates (s : CallList ρ) : CallListAction ρ → Bool
  | .step i => s.creates[i]? == some .generate
  | _ => false

/-- Fewer than `2 ^ 32` IDs are generated after the one of a request that is still in use. -/
def InWindow (s : CallList ρ) (a : CallListAction ρ) : Prop :=
  s.generates a = true → ∀ request ∈ s.live, s.generated < request.seq + 2 ^ 32

instance (s : CallList ρ) (a : CallListAction ρ) : Decidable (s.InWindow a) :=
  inferInstanceAs (Decidable (_ → _))

/-- A response or a timeout changes no entry and no future of a call with another ID. -/
def LeavesOthers (s : CallList ρ) (a : CallListAction ρ) (s' : CallList ρ) : Prop :=
  ∀ id, s.answers a = some id → ∀ id', id' ≠ id → s'.list id' = s.list id' ∧
    ∀ promise, s.Registered id' promise → s'.futures[promise]? = s.futures[promise]?

/-- Futures are completed at most once and by their own causes, and the list holds the registered
calls that are not completed. -/
structure CompletesOwn (s : CallList ρ) : Prop where
  once : s.completed.Nodup
  own : ∀ c ∈ s.completions, ∃ request, s.registered[c.promise]? = some request ∧
    c.cause.IsOf request.id c.promise
  outcomes : ∀ c ∈ s.completions, s.futures[c.promise]? = some c.cause.outcome
  unset : ∀ promise < s.futures.length, promise ∉ s.completed → s.futures[promise]? = some {}
  returned : ∀ request promise, .returned request promise ∈ s.creates →
    s.registered[promise]? = some request
  listed : ∀ id promise, s.promiseOf id = some promise ↔
    s.Registered id promise ∧ promise ∉ s.completed

/-! ## The names in use -/

theorem mem_live_of_pendingAt {s : CallList ρ} {i : Nat} {request : Request}
    (h : s.pendingAt i = some request) : request ∈ s.live := by
  obtain ⟨create, hi, hpending⟩ := Option.bind_eq_some_iff.mp h
  exact List.mem_append_left _
    (List.mem_filterMap.mpr ⟨create, List.mem_of_getElem? hi, hpending⟩)

theorem mem_live_of_registered {s : CallList ρ} {promise : Nat} {request : Request}
    (h : s.registered[promise]? = some request) (hwaiting : s.isWaiting request promise = true) :
    request ∈ s.live := by
  refine List.mem_append_right _ (List.mem_map.mpr ⟨(request, promise), ?_, rfl⟩)
  exact List.mem_filter.mpr ⟨List.mk_mem_zipIdx_iff_getElem?.mpr h, hwaiting⟩

theorem pendingAt_set {creates : List Create} {i : Nat} {create : Create}
    (hi : creates[i]? = some create) (create' : Create) (j : Nat) :
    (creates.set i create')[j]?.bind Create.pending =
      if i = j then create'.pending else creates[j]?.bind Create.pending := by
  by_cases heq : i = j
  · rw [if_pos heq, ← heq, List.getElem?_set_self (List.getElem?_eq_some_iff.mp hi).1]
    rfl
  · rw [if_neg heq, List.getElem?_set_ne heq]

/-- What a step does to the requests that are not emplaced and to the queued handlers. -/
inductive Names (s s' : CallList ρ) : Prop where
  | kept (hpending : ∀ j request, s'.pendingAt j = some request → s.pendingAt j = some request)
      (hlist : ∀ id promise, s'.promiseOf id = some promise → s.promiseOf id = some promise)
      (htimeouts : ∀ t ∈ s'.timeouts, t ∈ s.timeouts) (hgenerated : s'.generated = s.generated)
      (hnextId : s'.nextId = s.nextId) (hregistered : s'.registered = s.registered)
  | generated (i : Nat) (hi : s.creates[i]? = some .generate)
      (hnew : s'.pendingAt i = some { seq := s.generated, id := s.nextId })
      (hpending : ∀ j, j ≠ i → s'.pendingAt j = s.pendingAt j) (hlist : s'.promiseOf = s.promiseOf)
      (htimeouts : s'.timeouts = s.timeouts) (hgenerated : s'.generated = s.generated + 1)
      (hnextId : s'.nextId = s.nextId + 1) (hregistered : s'.registered = s.registered)
  | emplaced (i : Nat) (request : Request) (hi : s.pendingAt i = some request)
      (hnew : s'.pendingAt i = none) (hpending : ∀ j, j ≠ i → s'.pendingAt j = s.pendingAt j)
      (hlist : ∀ id, id ≠ request.id → s'.promiseOf id = s.promiseOf id)
      (htimeouts : s'.timeouts = s.timeouts) (hgenerated : s'.generated = s.generated)
      (hnextId : s'.nextId = s.nextId) (hregistered : s'.registered = s.registered ++ [request])
  | expired (id : MessageID) (promise : Nat) (hid : s.promiseOf id = some promise)
      (hpending : s'.pendingAt = s.pendingAt) (hlist : s'.promiseOf = s.promiseOf)
      (htimeouts : s'.timeouts = s.timeouts ++ [⟨id, promise⟩])
      (hgenerated : s'.generated = s.generated) (hnextId : s'.nextId = s.nextId)
      (hregistered : s'.registered = s.registered)

theorem Steps.names {s s' : CallList ρ} {a : CallListAction ρ} (h : Steps s a s') : Names s s' := by
  -- a step of `create` that leaves the request pending, or drops it
  have kept {i : Nat} {create : Create} (create' : Create) {t : CallList ρ}
      (hi : s.creates[i]? = some create)
      (hcreate : ∀ request, create'.pending = some request → create.pending = some request)
      (hlist : t.promiseOf = s.promiseOf) (hcreates : t.creates = s.creates.set i create')
      (htimeouts : t.timeouts = s.timeouts) (hgenerated : t.generated = s.generated)
      (hnextId : t.nextId = s.nextId) (hregistered : t.registered = s.registered) :
      Names s t := by
    refine .kept (fun j request hj => ?_) (fun id' promise hlisted => hlist ▸ hlisted)
      (fun t ht => htimeouts ▸ ht) hgenerated hnextId hregistered
    rw [pendingAt, hcreates, pendingAt_set hi] at hj
    by_cases heq : i = j
    · rw [if_pos heq] at hj
      rw [← heq, pendingAt, hi]
      exact hcreate request hj
    · rw [if_neg heq] at hj
      exact hj
  cases h with
  | create =>
    refine .kept (fun j request hj => ?_) (fun _ _ => id) (fun _ => id) rfl rfl rfl
    by_cases hlt : j < s.creates.length
    · rw [pendingAt, List.getElem?_append_left hlt] at hj
      exact hj
    · rw [pendingAt, List.getElem?_append_right (by omega)] at hj
      obtain ⟨create, hcreate, hpending⟩ := Option.bind_eq_some_iff.mp hj
      rw [List.mem_singleton.mp (List.mem_of_getElem? hcreate)] at hpending
      cases hpending
  | @generated i hi =>
    refine .generated i hi ?_ (fun j hne => ?_) rfl rfl rfl rfl rfl
    · exact (pendingAt_set hi _ i).trans (if_pos rfl)
    · exact (pendingAt_set hi _ j).trans (if_neg (Ne.symm hne))
  | @emplaced i request hi hlist =>
    refine .emplaced i request ?_ ?_ (fun j hne => ?_) (fun id hne => ?_) rfl rfl rfl rfl
    · rw [pendingAt, hi]
      rfl
    · exact (pendingAt_set hi _ i).trans (if_pos rfl)
    · exact (pendingAt_set hi _ j).trans (if_neg (Ne.symm hne))
    · exact congrArg (Option.map Call.promise) (Function.update_of_ne hne _ _)
  | serialized hi => exact kept (.emplace _) hi (fun _ => id) rfl rfl rfl rfl rfl rfl
  | timerStarted hi hlist =>
    exact kept (.future _ _) hi nofun (promiseOf_update hlist true) rfl rfl rfl rfl rfl
  | dangling hi =>
    rcases hi with hi | hi
    · exact kept .dangling hi nofun rfl rfl rfl rfl rfl rfl
    · exact kept .dangling hi nofun rfl rfl rfl rfl rfl rfl
  | ignored ha =>
    cases ha with
    | handle => exact .kept (fun _ _ => id) (fun _ _ => id) (fun _ => id) rfl rfl rfl
    | onTimeout =>
      exact .kept (fun _ _ => id) (fun _ _ => id) (fun _ => List.mem_of_mem_eraseIdx) rfl rfl rfl
  | @completed _ t id _ _ _ _ ha =>
    have hlist : ∀ id' promise,
        (Function.update s.list id none id').map Call.promise = some promise →
          s.promiseOf id' = some promise := by
      intro id' promise hlisted
      by_cases heq : id' = id
      · rw [heq, Function.update_self] at hlisted
        cases hlisted
      · rw [Function.update_of_ne heq] at hlisted
        exact hlisted
    cases ha with
    | handle => exact .kept (fun _ _ => id) hlist (fun _ => id) rfl rfl rfl
    | onTimeout => exact .kept (fun _ _ => id) hlist (fun _ => List.mem_of_mem_eraseIdx) rfl rfl rfl
  | expired hlist =>
    exact .expired _ _ (promiseOf_eq hlist) rfl (promiseOf_update hlist false) rfl rfl rfl rfl
  | serializationFailed hi | duplicate hi => exact kept .thrown hi nofun rfl rfl rfl rfl rfl rfl
  | returned hi => exact kept (.returned _ _) hi nofun rfl rfl rfl rfl rfl rfl

theorem Steps.generates {s s' : CallList ρ} {a : CallListAction ρ} (h : Steps s a s')
    (hgenerated : s'.generated = s.generated + 1) : s.generates a = true := by
  cases h with
  | generated hi =>
    rw [CallList.generates, hi]
    rfl
  | ignored ha => cases ha <;> exact absurd hgenerated (Nat.ne_of_lt (Nat.lt_succ_self _))
  | completed ha => cases ha <;> exact absurd hgenerated (Nat.ne_of_lt (Nat.lt_succ_self _))
  | _ => exact absurd hgenerated (Nat.ne_of_lt (Nat.lt_succ_self _))

/-- What a run keeps that stays in the window. -/
structure Tracked (first : MessageID) (s : CallList ρ) : Prop where
  registry : s.Registry
  nextId : s.nextId = requestID first s.generated
  pendingSeq : ∀ i request, s.pendingAt i = some request →
    request.seq < s.generated ∧ request.id = requestID first request.seq
  registeredSeq : ∀ request ∈ s.registered,
    request.seq < s.generated ∧ request.id = requestID first request.seq
  free : ∀ i request, s.pendingAt i = some request →
    s.promiseOf request.id = none ∧ ∀ t ∈ s.timeouts, t.id ≠ request.id
  distinct : ∀ i j request request', s.pendingAt i = some request → s.pendingAt j = some request' →
    request.id = request'.id → i = j
  timers : ∀ t ∈ s.timeouts, s.Registered t.id t.promise ∧
    ∀ promise, s.promiseOf t.id = some promise → promise = t.promise
  own : ∀ c ∈ s.completions, ∀ promise, c.cause = .timeout promise → promise = c.promise

theorem tracked_init (first : MessageID) :
    Tracked first ({ nextId := first } : CallList ρ) where
  registry := registry_init first
  nextId := (requestID_zero first).symm
  pendingSeq _ _ := nofun
  registeredSeq := nofun
  free _ _ := nofun
  distinct _ _ _ _ := nofun
  timers := nofun
  own := nofun

/-- The next ID is not in use. -/
theorem Tracked.fresh {first : MessageID} {s : CallList ρ} (h : s.Tracked first)
    (hwindow : ∀ request ∈ s.live, s.generated < request.seq + 2 ^ 32) {request : Request}
    (hlive : request ∈ s.live) : request.id ≠ s.nextId := by
  have hseq : request.seq < s.generated ∧ request.id = requestID first request.seq := by
    rcases List.mem_append.mp hlive with hpending | hwaiting
    · obtain ⟨create, hcreate, hrequest⟩ := List.mem_filterMap.mp hpending
      obtain ⟨i, hi⟩ := List.getElem?_of_mem hcreate
      exact h.pendingSeq i request (Option.bind_eq_some_iff.mpr ⟨create, hi, hrequest⟩)
    · obtain ⟨⟨request', promise⟩, hmem, rfl⟩ := List.mem_map.mp hwaiting
      have hregistered := List.mk_mem_zipIdx_iff_getElem?.mp (List.mem_filter.mp hmem).1
      exact h.registeredSeq _ (List.mem_of_getElem? hregistered)
  rw [hseq.2, h.nextId]
  exact requestID_ne first hseq.1 (hwindow request hlive)

theorem Tracked.next_free {first : MessageID} {s : CallList ρ} (h : s.Tracked first)
    (hwindow : ∀ request ∈ s.live, s.generated < request.seq + 2 ^ 32) :
    s.promiseOf s.nextId = none ∧ ∀ t ∈ s.timeouts, t.id ≠ s.nextId := by
  constructor
  · cases hlisted : s.promiseOf s.nextId with
    | none => rfl
    | some promise =>
      obtain ⟨request, hrequest, hid⟩ := (h.registry.listed _ promise hlisted).1
      have hwaiting : s.isWaiting request promise = true := by
        rw [isWaiting, hid, hlisted, beq_self_eq_true, Bool.true_or]
      exact absurd hid (h.fresh hwindow (mem_live_of_registered hrequest hwaiting))
  · intro t ht hid
    obtain ⟨request, hrequest, hid'⟩ := (h.timers t ht).1
    have hwaiting : s.isWaiting request t.promise = true := by
      rw [isWaiting, Bool.or_eq_true, List.any_eq_true]
      exact .inr ⟨t, ht, beq_self_eq_true _⟩
    exact h.fresh hwindow (mem_live_of_registered hrequest hwaiting) (hid'.trans hid)

/-- A timer completes the call that has started it. -/
theorem Tracked.own_step {first : MessageID} {s s' : CallList ρ} {a : CallListAction ρ}
    (h : s.Tracked first) (hsteps : Steps s a s') :
    ∀ c ∈ s'.completions, ∀ promise, c.cause = .timeout promise → promise = c.promise := by
  cases hsteps.effect with
  | unchanged _ _ _ hcompletions | emplaced _ _ _ _ _ hcompletions =>
    rw [hcompletions]
    exact h.own
  | completed t id promise cause f f' ha hlisted _ _ _ _ _ hcompletions =>
    rw [hcompletions]
    intro c hc promise' hcause
    rcases List.mem_append.mp hc with hc | hc
    · exact h.own c hc promise' hcause
    · rw [List.mem_singleton.mp hc] at hcause ⊢
      cases ha with
      | handle => cases hcause
      | onTimeout hj =>
        -- the handler has found the entry that its own call still has
        cases hcause
        exact ((h.timers _ (List.mem_of_getElem? hj)).2 promise hlisted).symm

theorem Tracked.step {first : MessageID} {s s' : CallList ρ} {a : CallListAction ρ}
    (h : s.Tracked first) (hwindow : s.InWindow a) (hsteps : Steps s a s') : s'.Tracked first := by
  have hregistry := h.registry.step hsteps
  have hprefix := hsteps.effect.registered_prefix
  have hown := h.own_step hsteps
  -- by what becomes of the names: they only get fewer, or one is generated, taken or queued
  cases hsteps.names with
  | kept hpending hlist htimeouts hgenerated hnextId hregistered =>
    refine ⟨hregistry, ?_, fun i request hi => ?_, ?_, fun i request hi => ⟨?_, fun t ht => ?_⟩,
      fun i j request request' hi hj => ?_, fun t ht => ⟨?_, fun promise hlisted => ?_⟩, hown⟩
    · rw [hnextId, hgenerated]
      exact h.nextId
    · rw [hgenerated]
      exact h.pendingSeq i request (hpending i request hi)
    · rw [hregistered, hgenerated]
      exact h.registeredSeq
    · cases hlisted : s'.promiseOf request.id with
      | none => rfl
      | some promise =>
        have hbefore := hlist request.id promise hlisted
        rw [(h.free i request (hpending i request hi)).1] at hbefore
        cases hbefore
    · exact (h.free i request (hpending i request hi)).2 t (htimeouts t ht)
    · exact h.distinct i j request request' (hpending i request hi) (hpending j request' hj)
    · exact (h.timers t (htimeouts t ht)).1.mono hprefix
    · exact (h.timers t (htimeouts t ht)).2 promise (hlist t.id promise hlisted)
  | generated i hi hnew hpending hlist htimeouts hgenerated hnextId hregistered =>
    have hgenerates : s.generates a = true := hsteps.generates hgenerated
    have hwindow := hwindow hgenerates
    have hcases {j : Nat} {request : Request} (hj : s'.pendingAt j = some request) :
        j = i ∧ request = { seq := s.generated, id := s.nextId } ∨
          j ≠ i ∧ s.pendingAt j = some request := by
      by_cases heq : j = i
      · rw [heq, hnew, Option.some.injEq] at hj
        exact .inl ⟨heq, hj.symm⟩
      · exact .inr ⟨heq, hpending j heq ▸ hj⟩
    refine ⟨hregistry, ?_, fun j request hj => ?_, fun request hrequest => ?_,
      fun j request hj => ?_, fun j k request request' hj hk hid => ?_, ?_, hown⟩
    · rw [hnextId, hgenerated, h.nextId, requestID_succ]
    · rw [hgenerated]
      rcases hcases hj with ⟨-, rfl⟩ | ⟨-, hj⟩
      · exact ⟨Nat.lt_succ_self _, h.nextId⟩
      · obtain ⟨hlt, hid⟩ := h.pendingSeq j request hj
        exact ⟨Nat.lt_succ_of_lt hlt, hid⟩
    · rw [hregistered] at hrequest
      obtain ⟨hlt, hid⟩ := h.registeredSeq request hrequest
      exact ⟨hgenerated ▸ Nat.lt_succ_of_lt hlt, hid⟩
    · rw [hlist, htimeouts]
      rcases hcases hj with ⟨-, rfl⟩ | ⟨-, hj⟩
      · exact h.next_free hwindow
      · exact h.free j request hj
    · -- the new ID is the one of no older request
      rcases hcases hj with ⟨rfl, rfl⟩ | ⟨-, hj⟩ <;> rcases hcases hk with ⟨rfl, rfl⟩ | ⟨-, hk⟩
      · rfl
      · exact absurd hid.symm (h.fresh hwindow (mem_live_of_pendingAt hk))
      · exact absurd hid (h.fresh hwindow (mem_live_of_pendingAt hj))
      · exact h.distinct j k request request' hj hk hid
    · rw [htimeouts, hlist]
      intro t ht
      exact ⟨(h.timers t ht).1.mono hprefix, (h.timers t ht).2⟩
  | emplaced i request hi hnew hpending hlist htimeouts hgenerated hnextId hregistered =>
    have hbefore {j : Nat} {request' : Request} (hj : s'.pendingAt j = some request') :
        j ≠ i ∧ s.pendingAt j = some request' := by
      by_cases heq : j = i
      · rw [heq, hnew] at hj
        cases hj
      · exact ⟨heq, hpending j heq ▸ hj⟩
    refine ⟨hregistry, ?_, fun j request' hj => ?_, fun request' hrequest => ?_,
      fun j request' hj => ?_, fun j k request₁ request₂ hj hk => ?_, fun t ht => ?_, hown⟩
    · rw [hnextId, hgenerated]
      exact h.nextId
    · rw [hgenerated]
      exact h.pendingSeq j request' (hbefore hj).2
    · rw [hgenerated]
      rw [hregistered] at hrequest
      rcases List.mem_append.mp hrequest with hrequest | hrequest
      · exact h.registeredSeq request' hrequest
      · rw [List.mem_singleton.mp hrequest]
        exact h.pendingSeq i request hi
    · obtain ⟨hne, hj⟩ := hbefore hj
      -- a second pending request with this ID would be this one
      have hid : request'.id ≠ request.id := fun heq => hne (h.distinct j i _ _ hj hi heq)
      rw [hlist request'.id hid, htimeouts]
      exact h.free j request' hj
    · exact h.distinct j k request₁ request₂ (hbefore hj).2 (hbefore hk).2
    · -- no queued handler has the ID of the new entry
      rw [htimeouts] at ht
      rw [hlist t.id ((h.free i request hi).2 t ht)]
      exact ⟨(h.timers t ht).1.mono hprefix, (h.timers t ht).2⟩
  | expired id promise hid hpending hlist htimeouts hgenerated hnextId hregistered =>
    refine ⟨hregistry, ?_, ?_, ?_, fun j request hj => ?_, ?_, fun t ht => ?_, hown⟩
    · rw [hnextId, hgenerated]
      exact h.nextId
    · rw [hpending, hgenerated]
      exact h.pendingSeq
    · rw [hregistered, hgenerated]
      exact h.registeredSeq
    · rw [hpending] at hj
      rw [hlist, htimeouts]
      -- the expired timer belongs to an entry, and a pending request has none
      refine ⟨(h.free j request hj).1, fun t ht heq => ?_⟩
      rcases List.mem_append.mp ht with ht | ht
      · exact (h.free j request hj).2 t ht heq
      · rw [List.mem_singleton.mp ht] at heq
        have hnone := (h.free j request hj).1
        rw [← heq, hid] at hnone
        cases hnone
    · rw [hpending]
      exact h.distinct
    · rw [htimeouts] at ht
      rw [hlist]
      rcases List.mem_append.mp ht with ht | ht
      · exact ⟨(h.timers t ht).1.mono hprefix, (h.timers t ht).2⟩
      · rw [List.mem_singleton.mp ht]
        refine ⟨(h.registry.listed id promise hid).1.mono hprefix, fun promise' hlisted => ?_⟩
        rw [hid, Option.some.injEq] at hlisted
        exact hlisted.symm

/-! ## Whole runs -/

theorem Tracked.completesOwn {first : MessageID} {s : CallList ρ} (h : s.Tracked first) :
    s.CompletesOwn where
  once := h.registry.once
  own c hc := by
    have hlt := h.registry.lt_length (List.mem_map_of_mem hc)
    rw [← h.registry.length] at hlt
    have hrequest := List.getElem?_eq_getElem hlt
    refine ⟨_, hrequest, ?_⟩
    cases hcause : c.cause with
    | response r =>
      obtain ⟨request, hrequest', hid⟩ := h.registry.answered c hc r hcause
      rw [hrequest, Option.some.injEq] at hrequest'
      rw [hrequest']
      exact hid.symm
    | timeout promise => exact h.own c hc promise hcause
  outcomes := h.registry.outcomes
  unset promise hlt hnot := by
    rw [← h.registry.length] at hlt
    have hwaiting := h.registry.waiting promise _ (List.getElem?_eq_getElem hlt) hnot
    exact (h.registry.listed _ promise hwaiting).2
  returned request promise hmem := h.registry.references _ hmem request promise rfl
  listed id promise := by
    constructor
    · intro hlisted
      exact ⟨(h.registry.listed id promise hlisted).1, h.registry.not_completed hlisted⟩
    · rintro ⟨⟨request, hrequest, rfl⟩, hnot⟩
      exact h.registry.waiting promise request hrequest hnot

theorem Registry.leavesOthers {s s' : CallList ρ} {a : CallListAction ρ} (h : s.Registry)
    (hsteps : Steps s a s') : s.LeavesOthers a s' := by
  intro id hanswers id' hne
  cases hsteps with
  | ignored ha => cases ha <;> exact ⟨rfl, fun _ _ => rfl⟩
  | completed ha hlist =>
    obtain rfl := Option.some.inj (ha.answers_eq.symm.trans hanswers)
    refine ⟨Function.update_of_ne hne _ _, fun promise hregistered => ?_⟩
    refine List.getElem?_set_ne ?_
    rintro rfl
    exact hne (hregistered.unique (h.listed _ _ (promiseOf_eq hlist)).1)
  | _ => cases hanswers

end CallList

/-- In a run that stays in the window, every future is completed at most once and by its own
response or timeout, responses and timeouts leave the other calls alone, and the list holds exactly
the registered calls that are not completed. -/
theorem completesOwn_of_inWindow (first : MessageID) (schedule : List (CallListAction ρ))
    (s : CallList ρ)
    (hwindow : (callListMachine ρ first).Meets (fun s a _ => s.InWindow a) { nextId := first }
      schedule)
    (hrun : (callListMachine ρ first).run { nextId := first } schedule = some s) :
    s.CompletesOwn ∧
      (callListMachine ρ first).Meets CallList.LeavesOthers { nextId := first } schedule := by
  have hkeep : ∀ s a s', s.Tracked first → s.InWindow a →
      (callListMachine ρ first).step s a = some s' → s'.Tracked first := by
    intro s a s' h hok hstep
    exact h.step hok (CallList.steps_of_step hstep)
  have hothers : ∀ s a s', s.Tracked first → s.InWindow a →
      (callListMachine ρ first).step s a = some s' → s.LeavesOthers a s' := by
    intro s a s' h _ hstep
    exact h.registry.leavesOthers (CallList.steps_of_step hstep)
  have h := Machine.run_invariant hkeep (CallList.tracked_init first) hwindow hrun
  exact ⟨h.completesOwn, hwindow.imp hkeep hothers (CallList.tracked_init first)⟩

/-- Two calls whose IDs lie on both sides of the wrap-around.  The second one gets its response
twice, the first one times out. -/
def answeredSchedule : List (CallListAction Nat) :=
  [.create, .create, .step 0, .step 1, .step 1, .step 0, .step 1, .step 0, .step 0, .step 1,
    .step 1, .step 0, .handle ⟨0, 7⟩, .handle ⟨0, 8⟩, .expire 4294967295, .onTimeout 0]

theorem completesOwn_answeredSchedule :
    ∃ s, (callListMachine Nat 4294967295).run { nextId := 4294967295 } answeredSchedule = some s ∧
      s.completions = [⟨0, .response ⟨0, 7⟩⟩, ⟨1, .timeout 1⟩] ∧ s.CompletesOwn ∧
      (callListMachine Nat 4294967295).Meets CallList.LeavesOthers { nextId := 4294967295 }
        answeredSchedule := by
  have hrun : ((callListMachine Nat 4294967295).run { nextId := 4294967295 }
      answeredSchedule).map (·.completions) =
        some [⟨0, .response ⟨0, 7⟩⟩, ⟨1, .timeout 1⟩] := by decide
  obtain ⟨s, hs, hcompletions⟩ := Option.map_eq_some_iff.mp hrun
  exact ⟨s, hs, hcompletions,
    completesOwn_of_inWindow 4294967295 answeredSchedule s (by decide) hs⟩

end MsgpackRpc.Clients
