import Mathlib

set_option autoImplicit false

namespace TrtLlm.V2

structure HalfOpenRange where
  beg : Nat
  stop : Nat
deriving DecidableEq, Repr

instance : Membership Nat HalfOpenRange where
  mem range item := range.beg ≤ item ∧ item < range.stop

theorem mem_range (range : HalfOpenRange) (item : Nat) : item ∈ range ↔ range.beg ≤ item ∧ item < range.stop := Iff.rfl

instance (range : HalfOpenRange) (item : Nat) : Decidable (item ∈ range) :=
  inferInstanceAs (Decidable (range.beg ≤ item ∧ item < range.stop))

def HalfOpenRange.nonempty (range : HalfOpenRange) : Bool := decide (range.beg < range.stop)

def intersect (left right : HalfOpenRange) : HalfOpenRange :=
  ⟨max left.beg right.beg, min left.stop right.stop⟩

def divUp (value unit : Nat) : Nat := (value + unit - 1) / unit

theorem div_up_mono (unit : Nat) {less more : Nat} (order : less ≤ more) : divUp less unit ≤ divUp more unit :=
  Nat.div_le_div_right (by omega)

theorem div_up_exact (val unit : Nat) (pos : 0 < unit) (whole : val % unit = 0) : divUp val unit = val / unit := by
  have split := Nat.div_add_mod val unit
  unfold divUp
  rw [show val + unit - 1 = (unit - 1) + unit * (val / unit) by omega,
    Nat.add_mul_div_left _ _ pos, Nat.div_eq_of_lt (by omega), Nat.zero_add]

theorem div_up_inexact {val unit : Nat} (pos : 0 < unit) (rest : val % unit ≠ 0) :
    divUp val unit = val / unit + 1 ∧ (val - 1) / unit = val / unit := by
  have split := Nat.div_add_mod val unit
  have small := Nat.mod_lt val pos
  constructor
  · unfold divUp
    rw [show val + unit - 1 = (val % unit - 1) + unit * (val / unit + 1) by
        rw [Nat.mul_add, Nat.mul_one]
        omega,
      Nat.add_mul_div_left _ _ pos, Nat.div_eq_of_lt (by omega), Nat.zero_add]
  · rw [show val - 1 = (val % unit - 1) + unit * (val / unit) by omega,
      Nat.add_mul_div_left _ _ pos, Nat.div_eq_of_lt (by omega), Nat.zero_add]

-- AttnLifeCycle.make asserts that a window is positive.
structure AttnLifeCycle where
  windowSize : Option Nat
  numSinkBlocks : Nat
  window_pos : ∀ window, windowSize = some window → 0 < window
deriving DecidableEq, Repr

namespace AttnLifeCycle
variable (lifeCycle : AttnLifeCycle)

-- A possibly negative quotient is floored; below zero the maximum with the sink blocks wins, as with truncated
-- subtraction.
def getStaleRange (historyLength tokensPerBlock : Nat) : HalfOpenRange :=
  let start := min (divUp historyLength tokensPerBlock) lifeCycle.numSinkBlocks
  match lifeCycle.windowSize with
  | none => ⟨start, start⟩
  | some window => ⟨start, max start ((historyLength + 1 - window) / tokensPerBlock)⟩

def computeScratchRange (historyLength capacity tokensPerBlock maxRewindLen : Nat) : HalfOpenRange :=
  match lifeCycle.windowSize with
  | none => ⟨0, 0⟩
  | some _ =>
    intersect (lifeCycle.getStaleRange (capacity - maxRewindLen) tokensPerBlock)
      ⟨divUp historyLength tokensPerBlock, divUp capacity tokensPerBlock⟩

theorem window_stop_le (hist unit window : Nat) (pos : 0 < unit) (filled : 0 < window) :
    (hist + 1 - window) / unit ≤ divUp hist unit :=
  Nat.div_le_div_right (by omega)

theorem stale_stop_le (hist unit : Nat) (pos : 0 < unit) :
    (lifeCycle.getStaleRange hist unit).stop ≤ divUp hist unit := by
  unfold getStaleRange
  cases window : lifeCycle.windowSize with
  | none => simp only [min_le_left]
  | some size =>
    have bound := window_stop_le hist unit size pos (lifeCycle.window_pos size window)
    simp only
    omega

theorem mem_stale (hist unit item : Nat) (pos : 0 < unit) : item ∈ lifeCycle.getStaleRange hist unit ↔
      ∃ window, lifeCycle.windowSize = some window ∧ lifeCycle.numSinkBlocks ≤ item ∧ item < (hist + 1 - window) / unit := by
  rw [mem_range]
  unfold getStaleRange
  cases window : lifeCycle.windowSize with
  | none =>
    simp only [reduceCtorEq, false_and, exists_false, iff_false]
    omega
  | some size =>
    have bound := window_stop_le hist unit size pos (lifeCycle.window_pos size window)
    simp only [Option.some.injEq, exists_eq_left']
    omega

theorem stale_mono (unit item : Nat) {hist later : Nat} (pos : 0 < unit)
    (order : hist ≤ later) (stale : item ∈ lifeCycle.getStaleRange hist unit) :
    item ∈ lifeCycle.getStaleRange later unit := by
  rw [mem_stale lifeCycle _ _ _ pos] at stale ⊢
  obtain ⟨window, sliding, behind, before⟩ := stale
  exact ⟨window, sliding, behind, lt_of_lt_of_le before (Nat.div_le_div_right (by omega))⟩

theorem stale_lt_history (hist unit item : Nat) (pos : 0 < unit)
    (stale : item ∈ lifeCycle.getStaleRange hist unit) : item < divUp hist unit :=
  lt_of_lt_of_le stale.2 (stale_stop_le lifeCycle hist unit pos)

section
variable (hist capacity unit rewind item : Nat) (scratch : item ∈ lifeCycle.computeScratchRange hist capacity unit rewind)

include scratch

theorem mem_scratch_bounds : divUp hist unit ≤ item ∧ item < divUp capacity unit := by
  unfold computeScratchRange at scratch
  cases window : lifeCycle.windowSize with
  | none =>
    simp only [window, mem_range] at scratch
    omega
  | some size =>
    simp only [window, intersect, mem_range] at scratch ⊢
    omega

theorem scratch_not_stale (pos : 0 < unit) : item ∉ lifeCycle.getStaleRange hist unit := by
  intro stale
  have below := stale_lt_history lifeCycle hist unit item pos stale
  have above := (mem_scratch_bounds lifeCycle hist capacity unit rewind item scratch).1
  omega

end

end AttnLifeCycle
end TrtLlm.V2
