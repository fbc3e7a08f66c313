import Mathlib

set_option autoImplicit false

namespace TrtLlm.Lib

variable {ε α β γ : Type}

theorem except_bind_ok {x : Except ε α} {f : α → Except ε β} {b : β} : (x >>= f) = .ok b ↔ ∃ a, x = .ok a ∧ f a = .ok b := by
  cases x with
  | error e => simp [bind, Except.bind]
  | ok a => simp [bind, Except.bind]

theorem except_mapped_ok {x : Except ε α} {f : α → β} {b : β} : x.map f = .ok b ↔ ∃ a, x = .ok a ∧ f a = b := by
  cases x with
  | error e => simp [Except.map]
  | ok a => simp [Except.map]

variable {xs : List α} {ys : List β}

theorem except_map_ok {f : α → Except ε β} (run : xs.mapM f = .ok ys) : List.Forall₂ (fun x y => f x = .ok y) xs ys := by
  induction xs generalizing ys with
  | nil =>
    cases run
    exact .nil
  | cons x xs ih =>
    rw [List.mapM_cons, except_bind_ok] at run
    obtain ⟨y, head, run⟩ := run
    rw [except_bind_ok] at run
    obtain ⟨rest, tail, made⟩ := run
    cases made
    exact .cons head (ih tail)

theorem forall2_source {R : α → β → Prop} (rel : List.Forall₂ R xs ys) {y : β} (mem : y ∈ ys) : ∃ x ∈ xs, R x y := by
  induction rel with
  | nil => cases mem
  | cons head _ ih =>
    rcases List.mem_cons.mp mem with rfl | mem
    · exact ⟨_, List.mem_cons_self, head⟩
    · obtain ⟨x, listed, step⟩ := ih mem
      exact ⟨x, List.mem_cons_of_mem _ listed, step⟩

theorem forall2_comp {R : α → β → Prop} {S : β → γ → Prop} {T : α → γ → Prop}
    {ys : List β} {zs : List γ} (first : List.Forall₂ R xs ys) (second : List.Forall₂ S ys zs)
    (comp : ∀ a b c, R a b → S b c → T a c) : List.Forall₂ T xs zs := by
  induction first generalizing zs with
  | nil =>
    cases second
    exact .nil
  | cons head _ ih =>
    cases second with
    | cons head' tail' => exact .cons (comp _ _ _ head head') (ih tail')

def BothOk {δ : Type} (R : α → β → Prop) (x : Except ε α) (y : Except δ β) : Prop := ∃ a b, x = .ok a ∧ y = .ok b ∧ R a b

theorem ite_alike {R : α → β → Prop} {p q : Prop} [Decidable p] [Decidable q] {a a' : α} {b b' : β} (same : p ↔ q)
    (yes : q → R a b) (no : ¬q → R a' b') : R (if p then a else a') (if q then b else b') := by
  by_cases holds : q
  · rw [if_pos (same.mpr holds), if_pos holds]
    exact yes holds
  · rw [if_neg (mt same.mp holds), if_neg holds]
    exact no holds

section Runs
variable {State Action : Type} (Step : State → Action → State → Prop)

inductive Trace : State → List (Action × State) → Prop
  | nil (state : State) : Trace state []
  | cons {state next : State} {action : Action} {rest : List (Action × State)} :
      Step state action next → Trace next rest → Trace state ((action, next) :: rest)

def AllSteps (guard : State → Action → Prop) : State → List (Action × State) → Prop
  | _, [] => True
  | state, (action, next) :: rest => guard state action ∧ AllSteps guard next rest

instance AllSteps.decidable (guard : State → Action → Prop) [∀ state action, Decidable (guard state action)] :
    ∀ state run, Decidable (AllSteps guard state run)
  | _, [] => inferInstanceAs (Decidable True)
  | state, (action, next) :: rest =>
    have := AllSteps.decidable guard next rest
    inferInstanceAs (Decidable (guard state action ∧ AllSteps guard next rest))

inductive Reachable (start : State) : State → Prop
  | refl : Reachable start start
  | step {state next : State} {action : Action} : Reachable start state → Step state action next → Reachable start next

variable {Step}

theorem reachable_invariant (inv : State → Prop)
    (kept : ∀ state action next, inv state → Step state action next → inv next) (start state : State)
    (reached : Reachable Step start state) (holds : inv start) : inv state := by
  induction reached with
  | refl => exact holds
  | step _ step ih => exact kept _ _ _ ih step

theorem trace_invariant (guard : State → Action → Prop) (inv : State → Prop)
    (kept : ∀ st action next, inv st → guard st action → Step st action next → inv next)
    (start : State) (run : List (Action × State)) (trace : Trace Step start run)
    (guarded : AllSteps guard start run) (holds : inv start) : ∀ entry ∈ run, inv entry.2 := by
  induction trace with
  | nil st => simp
  | @cons st next action rest step _ ih =>
    have now := kept st action next holds guarded.1 step
    intro entry mem
    rcases List.mem_cons.mp mem with rfl | later
    · exact now
    · exact ih guarded.2 now entry later

-- Where a step keeps the invariant exactly when its guard holds, a run does exactly when all its steps meet the
-- guard.
theorem trace_exact (guard : State → Action → Prop) (inv shown : State → Prop)
    (exact_step : ∀ st action next, inv st → Step st action next →
      (inv next ↔ guard st action) ∧ (shown next ↔ inv next))
    (start : State) (run : List (Action × State)) (trace : Trace Step start run) (holds : inv start) :
    (∀ entry ∈ run, shown entry.2) ↔ AllSteps guard start run := by
  induction trace with
  | nil st => simp [AllSteps]
  | @cons st next action rest step _ ih =>
    obtain ⟨exact_now, visible_now⟩ := exact_step st action next holds step
    simp only [List.forall_mem_cons, AllSteps, visible_now, exact_now]
    constructor
    · rintro ⟨met, later⟩
      exact ⟨met, (ih (exact_now.mpr met)).mp later⟩
    · rintro ⟨met, later⟩
      exact ⟨met, (ih (exact_now.mpr met)).mpr later⟩

end Runs

end TrtLlm.Lib
