import Mathlib.Algebra.Order.Group.Multiset

/-!
# Stop and wait

The front of a queue is claimed under a flag, handed over, and removed when it comes back; removing
pops whatever is the front by then.  Elements under way may get lost and the flag may be cleared by
others, so that the same element, or the wrong one, can be under way twice.
-/

namespace StopAndWait

universe u

structure State (ε : Type u) where
  queue : List ε
  pushed : List ε
  removed : List ε
  handed : List ε
  taken : Bool
  claimed : Multiset ε
  outstanding : Multiset ε
  /-- How many removals have not released the flag yet. -/
  releasing : Nat

/-- `block` takes the flag without an element, and `drop` hands over to nobody. -/
inductive Label (ε : Type u) where
  | quiet
  | push (e : ε)
  | take (e : ε)
  | block
  | hand (e : ε)
  | drop (e : ε)
  | lose
  | remove (e : ε)
  | release
  | clear
  deriving DecidableEq

variable {ε : Type u}

def State.underWay (s : State ε) : Multiset ε := s.claimed + s.outstanding

inductive Step (s : State ε) : Label ε → State ε → Prop where
  | quiet : Step s .quiet s
  | push (e : ε) : Step s (.push e) { s with queue := s.queue ++ [e], pushed := s.pushed ++ [e] }
  | take (e : ε) (hfree : s.taken = false) :
      Step s (.take e) { s with taken := true, claimed := e ::ₘ s.claimed }
  | block (hfree : s.taken = false) : Step s .block { s with taken := true }
  | hand (e : ε) (claimed : Multiset ε) (hclaimed : s.claimed = e ::ₘ claimed) :
      Step s (.hand e)
        { s with claimed, outstanding := e ::ₘ s.outstanding, handed := s.handed ++ [e] }
  | drop (e : ε) : Step s (.drop e) { s with handed := s.handed ++ [e] }
  | lose (claimed outstanding : Multiset ε) (hclaimed : claimed ≤ s.claimed)
      (houtstanding : outstanding ≤ s.outstanding) :
      Step s .lose { s with claimed, outstanding }
  | remove (e front : ε) (queue : List ε) (outstanding : Multiset ε)
      (hqueue : s.queue = front :: queue) (houtstanding : s.outstanding = e ::ₘ outstanding) :
      Step s (.remove e)
        { s with
          queue, outstanding
          removed := s.removed ++ [front]
          releasing := s.releasing + 1 }
  | release (releasing : Nat) (hreleasing : s.releasing = releasing + 1) :
      Step s .release { s with taken := false, releasing }
  | clear : Step s .clear { s with taken := false }

/-! ## Removing exactly what comes back -/

/-- At most one element is under way, and it is the front of the queue. -/
structure Exact (s : State ε) : Prop where
  front : ∀ e ∈ s.underWay, s.queue.head? = some e
  single : s.underWay.card ≤ 1

/-- The front may be taken when nothing is under way. -/
def State.MayTake (s : State ε) (e : ε) : Prop := s.queue.head? = some e ∧ s.underWay = 0

instance [DecidableEq ε] (s : State ε) (e : ε) : Decidable (s.MayTake e) :=
  inferInstanceAs (Decidable (_ ∧ _))

theorem Exact.of_le {s t : State ε} (h : Exact s) (hle : t.underWay ≤ s.underWay)
    (hqueue : t.queue = s.queue) : Exact t where
  front e he := hqueue ▸ h.front e (Multiset.mem_of_le hle he)
  single := (Multiset.card_le_card hle).trans h.single

/-- An element that comes back was alone, and it is the front. -/
theorem Exact.alone {s : State ε} {e : ε} {outstanding : Multiset ε} (h : Exact s)
    (houtstanding : s.outstanding = e ::ₘ outstanding) :
    s.queue.head? = some e ∧ s.claimed + outstanding = 0 := by
  have hunder : s.underWay = e ::ₘ (s.claimed + outstanding) := by
    rw [State.underWay, houtstanding, Multiset.add_cons]
  constructor
  · exact h.front e (hunder ▸ Multiset.mem_cons_self e _)
  · have hsingle := h.single
    rw [hunder, Multiset.card_cons] at hsingle
    exact Multiset.card_eq_zero.mp (by omega)

theorem underWay_take {s : State ε} (hnone : s.underWay = 0) (e : ε) :
    (e ::ₘ s.claimed) + s.outstanding = {e} := by
  rw [Multiset.cons_add, show s.claimed + s.outstanding = 0 from hnone, Multiset.cons_zero]

theorem Exact.step {s s' : State ε} {l : Label ε} (h : Exact s) (hstep : Step s l s')
    (htake : ∀ e, l = .take e → s.MayTake e) : Exact s' := by
  cases hstep with
  | push e =>
    refine ⟨fun x hx => ?_, h.single⟩
    have hfront := h.front x hx
    rw [List.head?_append, hfront]
    rfl
  | take e =>
    obtain ⟨hfront, hnone⟩ := htake e rfl
    refine ⟨fun x hx => ?_, ?_⟩
    · rw [State.underWay, underWay_take hnone, Multiset.mem_singleton] at hx
      rw [hx]
      exact hfront
    · rw [State.underWay, underWay_take hnone, Multiset.card_singleton]
  | hand e claimed hclaimed =>
    have hunder : claimed + (e ::ₘ s.outstanding) = s.underWay := by
      rw [State.underWay, hclaimed, Multiset.add_cons, Multiset.cons_add]
    exact h.of_le (le_of_eq hunder) rfl
  | lose claimed outstanding hclaimed houtstanding =>
    exact h.of_le (add_le_add hclaimed houtstanding) rfl
  | remove e front queue outstanding hqueue houtstanding =>
    have hnone := (h.alone houtstanding).2
    refine ⟨fun x hx => ?_, ?_⟩
    · rw [State.underWay, hnone] at hx
      exact absurd hx (Multiset.notMem_zero x)
    · rw [State.underWay, hnone, Multiset.card_zero]
      exact Nat.zero_le 1
  | _ => exact h.of_le (le_refl _) rfl

/-- Only what comes back is removed. -/
theorem Exact.mem_removed {s s' : State ε} {l : Label ε} (h : Exact s) (hstep : Step s l s') {e : ε}
    (he : e ∈ s'.removed) : e ∈ s.removed ∨ l = .remove e := by
  cases hstep with
  | remove x front queue outstanding hqueue houtstanding =>
    have hfront := (h.alone houtstanding).1
    rw [hqueue, List.head?_cons, Option.some.injEq] at hfront
    rw [List.mem_append, List.mem_singleton] at he
    exact he.imp_right fun heq => by rw [heq, hfront]
  | _ => exact .inl he

/-! ## Handing over in order -/

theorem Step.pushed_eq {s s' : State ε} {l : Label ε} (hstep : Step s l s')
    (h : s.pushed = s.removed ++ s.queue) : s'.pushed = s'.removed ++ s'.queue := by
  cases hstep with
  | push e =>
    show s.pushed ++ [e] = s.removed ++ (s.queue ++ [e])
    rw [h, List.append_assoc]
  | remove e front queue outstanding hqueue =>
    show s.pushed = s.removed ++ [front] ++ queue
    rw [h, hqueue, List.append_assoc, List.singleton_append]
  | _ => exact h

/-- Nothing is lost and the flag is cleared by its holder only. -/
def Label.isLossless : Label ε → Bool
  | .block | .drop _ | .lose | .clear => false
  | _ => true

/-- The flag is held for the one element under way, and the elements handed over so far are the
removed ones and after them what is outstanding. -/
structure Serial (s : State ε) : Prop extends Exact s where
  pushed : s.pushed = s.removed ++ s.queue
  taken : s.taken.toNat = s.underWay.card + s.releasing
  handed : ∃ l : List ε, ↑l = s.outstanding ∧ s.handed = s.removed ++ l

theorem Serial.nothing_underWay {s : State ε} (h : Serial s) (hfree : s.taken = false) :
    s.underWay = 0 := by
  have htaken := h.taken
  rw [hfree, Bool.toNat_false] at htaken
  exact Multiset.card_eq_zero.mp (by omega)

theorem Serial.step {s s' : State ε} {l : Label ε} (h : Serial s) (hstep : Step s l s')
    (hlossless : l.isLossless = true) (htake : ∀ e, l = .take e → s.queue.head? = some e) :
    Serial s' := by
  have hexact : Exact s' := by
    refine h.toExact.step hstep fun e he => ⟨htake e he, ?_⟩
    subst he
    cases hstep with
    | take _ hfree => exact h.nothing_underWay hfree
  refine ⟨hexact, hstep.pushed_eq h.pushed, ?_, ?_⟩
  · -- the flag
    have htaken := h.taken
    have hbool : s.taken.toNat ≤ 1 := Bool.toNat_le _
    cases hstep with
    | quiet => exact htaken
    | push e => exact htaken
    | take e hfree =>
      have hnone := h.nothing_underWay hfree
      rw [hfree, hnone, Bool.toNat_false, Multiset.card_zero] at htaken
      rw [State.underWay, underWay_take hnone, Bool.toNat_true, Multiset.card_singleton]
      show 1 = 1 + s.releasing
      omega
    | hand e claimed hclaimed =>
      rw [State.underWay, hclaimed, Multiset.cons_add] at htaken
      rw [State.underWay, Multiset.add_cons]
      exact htaken
    | remove e front queue outstanding hqueue houtstanding =>
      rw [State.underWay, houtstanding, Multiset.add_cons, Multiset.card_cons] at htaken
      show s.taken.toNat = (s.claimed + outstanding).card + (s.releasing + 1)
      omega
    | release releasing hreleasing =>
      show 0 = s.underWay.card + releasing
      omega
    | block => cases hlossless
    | drop => cases hlossless
    | lose => cases hlossless
    | clear => cases hlossless
  · -- what has been handed over
    obtain ⟨l, hl, hhanded⟩ := h.handed
    cases hstep with
    | quiet => exact ⟨l, hl, hhanded⟩
    | push e => exact ⟨l, hl, hhanded⟩
    | take e hfree => exact ⟨l, hl, hhanded⟩
    | hand e claimed hclaimed =>
      have hsingle := h.single
      rw [State.underWay, hclaimed, Multiset.cons_add, Multiset.card_cons, Multiset.card_add,
        ← hl, Multiset.coe_card] at hsingle
      obtain rfl : l = [] := List.length_eq_zero_iff.mp (by omega)
      refine ⟨[e], ?_, ?_⟩
      · show ({e} : Multiset ε) = e ::ₘ s.outstanding
        rw [← hl]
        rfl
      · rw [hhanded, List.append_nil]
    | remove e front queue outstanding hqueue houtstanding =>
      obtain ⟨hfront, halone⟩ := h.alone houtstanding
      have hnone : outstanding = 0 :=
        Multiset.le_zero.mp (halone ▸ Multiset.le_add_left _ _)
      rw [hqueue, List.head?_cons, Option.some.injEq] at hfront
      rw [houtstanding, hnone, Multiset.cons_zero, Multiset.coe_eq_singleton] at hl
      refine ⟨[], hnone.symm, ?_⟩
      rw [hhanded, hl, hfront, List.append_nil]
    | release releasing hreleasing => exact ⟨l, hl, hhanded⟩
    | block => cases hlossless
    | drop => cases hlossless
    | lose => cases hlossless
    | clear => cases hlossless

theorem Serial.handed_prefix {s : State ε} (h : Serial s) : s.handed <+: s.pushed := by
  obtain ⟨l, hl, hhanded⟩ := h.handed
  rw [hhanded, h.pushed, List.prefix_append_right_inj]
  have hsingle := h.single
  rw [State.underWay, Multiset.card_add, ← hl, Multiset.coe_card] at hsingle
  match l, hl with
  | [], _ => exact List.nil_prefix
  | [e], hl =>
    have hfront := h.front e (by
      rw [State.underWay, ← hl]
      exact Multiset.mem_add.mpr (.inr (Multiset.mem_singleton_self e)))
    obtain ⟨queue, hqueue⟩ := List.head?_eq_some_iff.mp hfront
    rw [hqueue]
    exact List.prefix_append [e] queue
  | _ :: _ :: _, _ =>
    simp only [List.length_cons] at hsingle
    omega

/-! ## Beginning what has been handed over -/

/-- Of what has been handed over everything but what is pending has been begun, in this order. -/
def HasBegun (handed begun : List ε) (pending : Multiset ε) : Prop :=
  ∃ l : List ε, ↑l = pending ∧ handed = begun ++ l

theorem hasBegun_nil : HasBegun ([] : List ε) [] 0 := ⟨[], rfl, rfl⟩

theorem HasBegun.begun_prefix {handed begun : List ε} {pending : Multiset ε}
    (h : HasBegun handed begun pending) : begun <+: handed := by
  obtain ⟨l, -, rfl⟩ := h
  exact List.prefix_append begun l

theorem HasBegun.begun_eq {handed begun : List ε} (h : HasBegun handed begun 0) :
    begun = handed := by
  obtain ⟨l, hl, rfl⟩ := h
  rw [Multiset.coe_eq_zero] at hl
  rw [hl, List.append_nil]

/-- With at most one element pending, the one that is begun is the last one handed over. -/
theorem HasBegun.step {handed begun new started : List ε} {pending pending' : Multiset ε}
    (h : HasBegun handed begun pending) (hpending : pending + ↑new = ↑started + pending')
    (hone : pending.card ≤ 1) (hexclusive : started = [] ∨ new = []) :
    HasBegun (handed ++ new) (begun ++ started) pending' := by
  obtain ⟨l, rfl, rfl⟩ := h
  rcases hexclusive with rfl | rfl
  · rw [Multiset.coe_nil, zero_add] at hpending
    refine ⟨l ++ new, ?_, ?_⟩
    · rw [← Multiset.coe_add, hpending]
    · rw [List.append_nil, List.append_assoc]
  · rw [Multiset.coe_nil, add_zero] at hpending
    rw [Multiset.coe_card] at hone
    cases started with
    | nil =>
      rw [Multiset.coe_nil, zero_add] at hpending
      exact ⟨l, hpending, by rw [List.append_nil, List.append_nil]⟩
    | cons e started =>
      -- nothing else is pending
      have hcard := congrArg Multiset.card hpending
      rw [Multiset.card_add, Multiset.coe_card, Multiset.coe_card, List.length_cons] at hcard
      obtain rfl : started = [] := List.eq_nil_of_length_eq_zero (by omega)
      obtain rfl : pending' = 0 := Multiset.card_eq_zero.mp (by omega)
      rw [add_zero, Multiset.coe_eq_coe, List.perm_singleton] at hpending
      exact ⟨[], rfl, by rw [hpending]⟩

end StopAndWait
