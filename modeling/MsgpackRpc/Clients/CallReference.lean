import MsgpackRpc.Clients.CallRegistry

/-!
# The reference into the map

`create` uses its reference to the new entry after it has released the mutex.  The entry is gone
exactly if a response or a timeout with the new ID is handled before.
-/

namespace MsgpackRpc.Clients

variable {ρ : Type}

/-- The call whose reference the next step of `create` uses. -/
def Create.uses : Create → Option (Request × Nat)
  | .setTimeout request promise | .future request promise => some (request, promise)
  | _ => none

theorem Create.reference_of_uses {create : Create} {request : Request} {promise : Nat}
    (h : create.uses = some (request, promise)) : create.reference = some (request, promise) := by
  cases create with
  | setTimeout | future => exact h
  | _ => cases h

namespace CallList

/-- The entry is in the list wherever `create` uses its reference, and what `create` returns is the
future of the call that it has registered. -/
structure UsesOwnEntry (s : CallList ρ) : Prop where
  listed : ∀ create ∈ s.creates, ∀ request promise, create.uses = some (request, promise) →
    s.promiseOf request.id = some promise
  defined : .dangling ∉ s.creates
  returned : ∀ request promise, .returned request promise ∈ s.creates →
    s.registered[promise]? = some request

/-- No response and no timeout is handled for a call whose reference is still to be used. -/
def Spares (s : CallList ρ) (a : CallListAction ρ) : Prop :=
  ∀ create ∈ s.creates, ∀ call, create.uses = some call → s.answers a ≠ some call.1.id

instance (s : CallList ρ) (a : CallListAction ρ) : Decidable (s.Spares a) :=
  inferInstanceAs (Decidable (∀ create ∈ s.creates, ∀ call ∈ create.uses, _ ≠ _))

theorem usesOwnEntry_init (first : MessageID) :
    ({ nextId := first } : CallList ρ).UsesOwnEntry where
  listed := nofun
  defined := nofun
  returned _ _ := nofun

/-- A use that is still to come was so before, or the entry has just been emplaced. -/
theorem Steps.uses {s s' : CallList ρ} {a : CallListAction ρ} (h : Steps s a s') {create : Create}
    (hmem : create ∈ s'.creates) {request : Request} {promise : Nat}
    (huses : create.uses = some (request, promise)) :
    (∃ create ∈ s.creates, create.uses = some (request, promise)) ∨
      s'.promiseOf request.id = some promise := by
  have hset {i : Nat} {create' : Create} (hmem : create ∈ s.creates.set i create')
      (hnone : create'.uses = none) : create ∈ s.creates := by
    rcases List.mem_or_eq_of_mem_set hmem with hmem | rfl
    · exact hmem
    · rw [hnone] at huses
      cases huses
  cases h with
  | create =>
    rcases List.mem_append.mp hmem with hmem | hmem
    · exact .inl ⟨create, hmem, huses⟩
    · rw [List.mem_singleton.mp hmem] at huses
      cases huses
  | @emplaced i request' hi hlist =>
    rcases List.mem_or_eq_of_mem_set hmem with hmem | rfl
    · exact .inl ⟨create, hmem, huses⟩
    · cases huses
      refine .inr ?_
      show (Function.update s.list request.id _ request.id).map Call.promise = _
      rw [Function.update_self, Option.map_some]
  | timerStarted hi =>
    rcases List.mem_or_eq_of_mem_set hmem with hmem | rfl
    · exact .inl ⟨create, hmem, huses⟩
    · cases huses
      exact .inl ⟨_, List.mem_of_getElem? hi, rfl⟩
  | ignored ha | completed ha =>
    have hsame : create ∈ s.creates := by cases ha <;> exact hmem
    exact .inl ⟨create, hsame, huses⟩
  | expired => exact .inl ⟨create, hmem, huses⟩
  | _ => exact .inl ⟨create, hset hmem rfl, huses⟩

/-- A use goes well, or it is still to come, or it was of no use. -/
theorem Steps.used {s s' : CallList ρ} {a : CallListAction ρ} (h : Steps s a s') {create : Create}
    (hmem : create ∈ s.creates) {request : Request} {promise : Nat}
    (huses : create.uses = some (request, promise)) :
    s.promiseOf request.id = some promise ∨ create ∈ s'.creates ∨ .dangling ∈ s'.creates := by
  have hset {i : Nat} {x : Create} (hi : s.creates[i]? = some x) (create' : Create) :
      x = create ∨ create ∈ s.creates.set i create' := by
    refine (List.exists_mem_set (P := (· = create)) hi create' ⟨create, hmem, rfl⟩).imp_right ?_
    rintro ⟨_, hmem', rfl⟩
    exact hmem'
  have hkept {i : Nat} {x : Create} (hi : s.creates[i]? = some x) (create' : Create)
      (hnone : x.uses = none) : create ∈ s.creates.set i create' := by
    refine (hset hi create').resolve_left ?_
    rintro rfl
    rw [hnone] at huses
    cases huses
  cases h with
  | create => exact .inr (.inl (List.mem_append_left _ hmem))
  | timerStarted hi hlist | returned hi hlist =>
    rcases hset hi _ with rfl | hmem'
    · cases huses
      exact .inl (promiseOf_eq hlist)
    · exact .inr (.inl hmem')
  | @dangling i _ _ hi =>
    refine .inr (.inr (List.mem_of_getElem? (List.getElem?_set_self ?_)))
    rcases hi with hi | hi <;> exact (List.getElem?_eq_some_iff.mp hi).1
  | ignored ha | completed ha => exact .inr (.inl (by cases ha <;> exact hmem))
  | expired => exact .inr (.inl hmem)
  | generated hi | serialized hi | serializationFailed hi | duplicate hi | emplaced hi =>
    exact .inr (.inl (hkept hi _ rfl))

theorem Steps.dangling_mem {s s' : CallList ρ} {a : CallListAction ρ} (h : Steps s a s')
    (hmem : .dangling ∈ s.creates) : .dangling ∈ s'.creates := by
  have hset {i : Nat} {x : Create} (hi : s.creates[i]? = some x) (hne : x ≠ .dangling)
      (create' : Create) : .dangling ∈ s.creates.set i create' := by
    rcases List.exists_mem_set hi create' ⟨.dangling, hmem, rfl⟩ with heq | ⟨_, hmem', rfl⟩
    · exact absurd heq.symm hne
    · exact hmem'
  cases h with
  | create => exact List.mem_append_left _ hmem
  | dangling hi => rcases hi with hi | hi <;> exact hset hi nofun _
  | ignored ha | completed ha => cases ha <;> exact hmem
  | expired => exact hmem
  | generated hi | serialized hi | serializationFailed hi | duplicate hi | emplaced hi
  | timerStarted hi | returned hi => exact hset hi nofun _

/-- A new dangling use is one of an entry that is gone. -/
theorem Steps.of_dangling_mem {s s' : CallList ρ} {a : CallListAction ρ} (h : Steps s a s')
    (hown : s.UsesOwnEntry) : .dangling ∉ s'.creates := by
  intro hmem
  have hset {i : Nat} {create' : Create} (hmem : .dangling ∈ s.creates.set i create')
      (hne : .dangling ≠ create') : False := by
    rcases List.mem_or_eq_of_mem_set hmem with hmem | heq
    · exact hown.defined hmem
    · exact hne heq
  cases h with
  | create =>
    rcases List.mem_append.mp hmem with hmem | hmem
    · exact hown.defined hmem
    · cases List.mem_singleton.mp hmem
  | @dangling i request promise hi hlist =>
    have hlisted : s.promiseOf request.id = some promise := by
      rcases hi with hi | hi <;> exact hown.listed _ (List.mem_of_getElem? hi) _ _ rfl
    obtain ⟨call, hcall, hpromise⟩ := Option.map_eq_some_iff.mp hlisted
    exact hlist call hcall hpromise
  | ignored ha | completed ha => cases ha <;> exact hown.defined hmem
  | expired => exact hown.defined hmem
  | _ => exact hset hmem nofun

theorem UsesOwnEntry.before {s s' : CallList ρ} {a : CallListAction ρ} (h : s.Registry)
    (hsteps : Steps s a s') (hown : s'.UsesOwnEntry) : s.UsesOwnEntry where
  listed create hmem request promise huses := by
    rcases hsteps.used hmem huses with hlisted | hmem' | hdangling
    · exact hlisted
    · have hlisted := hown.listed create hmem' request promise huses
      have hregistered := h.references create hmem request promise
        (Create.reference_of_uses huses)
      cases hsteps.effect with
      | unchanged hlist => rwa [hlist] at hlisted
      | emplaced request' hfree hlist =>
        -- the new entry has a new promise, so it is not the one referred to
        have hlt := (List.getElem?_eq_some_iff.mp hregistered).1
        rw [h.length] at hlt
        rw [hlist] at hlisted
        by_cases heq : request.id = request'.id
        · rw [heq, Function.update_self, Option.some.injEq] at hlisted
          omega
        · rwa [Function.update_of_ne heq] at hlisted
      | completed t id promise' cause f f' ha hid hf hset hlist =>
        rw [hlist] at hlisted
        by_cases heq : request.id = id
        · rw [heq, Function.update_self] at hlisted
          cases hlisted
        · rwa [Function.update_of_ne heq] at hlisted
    · exact absurd hdangling hown.defined
  defined hmem := hown.defined (hsteps.dangling_mem hmem)
  returned request promise hmem := h.references _ hmem request promise rfl

theorem UsesOwnEntry.step_iff {s s' : CallList ρ} {a : CallListAction ρ} (h : s.Registry)
    (hown : s.UsesOwnEntry) (hsteps : Steps s a s') : s'.UsesOwnEntry ↔ s.Spares a := by
  constructor
  · -- the entry that is erased is still to be used
    intro hown' create hmem call huses hanswers
    have hlisted := hown.listed create hmem call.1 call.2 huses
    cases hsteps with
    | ignored ha hlist =>
      obtain rfl := Option.some.inj (ha.answers_eq.symm.trans hanswers)
      rw [promiseOf, hlist] at hlisted
      cases hlisted
    | @completed _ t _ _ _ _ _ ha hlist =>
      have hmem' : create ∈ t.creates := by cases ha <;> exact hmem
      have hgone := hown'.listed create hmem' call.1 call.2 huses
      rw [← Option.some.inj (ha.answers_eq.symm.trans hanswers)] at hgone
      change (Function.update s.list _ none _).map Call.promise = _ at hgone
      rw [Function.update_self] at hgone
      cases hgone
    | _ => cases hanswers
  · intro hspares
    refine ⟨fun create hmem request promise huses => ?_, hsteps.of_dangling_mem hown, ?_⟩
    · rcases hsteps.uses hmem huses with ⟨create', hmem', huses'⟩ | hnew
      · have hlisted := hown.listed create' hmem' request promise huses'
        cases hsteps.effect with
        | unchanged hlist => rw [hlist, hlisted]
        | emplaced request' hfree hlist =>
          -- `try_emplace` inserts only where nothing is
          have hne : request.id ≠ request'.id := by
            intro heq
            rw [heq, hfree] at hlisted
            cases hlisted
          rw [hlist, Function.update_of_ne hne, hlisted]
        | completed t id promise' cause f f' ha hid hf hset hlist =>
          have hne : request.id ≠ id := by
            rintro rfl
            exact hspares create' hmem' _ huses' ha.answers_eq
          rw [hlist, Function.update_of_ne hne, hlisted]
      · exact hnew
    · exact fun request promise hmem => (h.step hsteps).references _ hmem request promise rfl

end CallList

/-- The reference is valid wherever `create` uses it exactly in the runs in which no response and no
timeout is handled for a call whose `create` is still to use it. -/
theorem usesOwnEntry_iff (first : MessageID) (schedule : List (CallListAction ρ)) (s : CallList ρ)
    (hrun : (callListMachine ρ first).run { nextId := first } schedule = some s) :
    s.UsesOwnEntry ↔
      (callListMachine ρ first).Meets (fun s a _ => s.Spares a) { nextId := first } schedule := by
  have hkeep : ∀ s a s', s.Registry → (callListMachine ρ first).step s a = some s' →
      s'.Registry := by
    intro s a s' h hstep
    exact h.step (CallList.steps_of_step hstep)
  have hback : ∀ s a s', (callListMachine ρ first).step s a = some s' →
      (s'.Registry → s'.UsesOwnEntry) → s.Registry → s.UsesOwnEntry := by
    intro s a s' hstep hown h
    exact .before h (CallList.steps_of_step hstep) (hown (hkeep s a s' h hstep))
  have hiff : ∀ s a s', s.Registry → (s.Registry → s.UsesOwnEntry) →
      (callListMachine ρ first).step s a = some s' →
        ((s'.Registry → s'.UsesOwnEntry) ↔ s.Spares a) := by
    intro s a s' h hown hstep
    rw [← CallList.UsesOwnEntry.step_iff h (hown h) (CallList.steps_of_step hstep)]
    exact imp_iff_right (hkeep s a s' h hstep)
  have hinit := CallList.registry_init (ρ := ρ) first
  rw [← Machine.holds_after_iff hback hkeep hiff hinit
    (fun _ => CallList.usesOwnEntry_init first) hrun]
  have hregistry := Machine.run_keeps hkeep hinit hrun
  exact (imp_iff_right hregistry).symm

/-- One call is created, and the peer answers it. -/
def createdSchedule : List (CallListAction Nat) :=
  [.create, .step 0, .step 0, .step 0, .step 0, .step 0, .handle ⟨0, 7⟩]

theorem usesOwnEntry_createdSchedule :
    ∃ s, (callListMachine Nat 0).run { nextId := 0 } createdSchedule = some s ∧
      s.creates = [.returned ⟨0, 0⟩ 0] ∧ s.UsesOwnEntry := by
  have hrun : ((callListMachine Nat 0).run { nextId := 0 } createdSchedule).map (·.creates) =
      some [.returned ⟨0, 0⟩ 0] := by decide
  obtain ⟨s, hs, hcreates⟩ := Option.map_eq_some_iff.mp hrun
  exact ⟨s, hs, hcreates, (usesOwnEntry_iff 0 createdSchedule s hs).mpr (by decide)⟩

/-- The deadline passes right after `set_timeout`. -/
def timedOutSchedule : List (CallListAction Nat) :=
  [.create, .step 0, .step 0, .step 0, .step 0, .expire 0, .onTimeout 0, .step 0]

theorem uses_erased_entry :
    ¬ ∀ (schedule : List (CallListAction Nat)) (s : CallList Nat),
      (callListMachine Nat 0).run { nextId := 0 } schedule = some s → s.UsesOwnEntry := by
  intro h
  have hrun : ((callListMachine Nat 0).run { nextId := 0 } timedOutSchedule).map (·.creates) =
      some [.dangling] := by decide
  obtain ⟨s, hs, hcreates⟩ := Option.map_eq_some_iff.mp hrun
  have hdefined := (h _ s hs).defined
  rw [hcreates] at hdefined
  exact hdefined (List.mem_singleton_self _)

end MsgpackRpc.Clients
