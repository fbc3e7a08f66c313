import Mathlib

set_option autoImplicit false

namespace TrtLlm.Executor
open List

structure Interval where
  lowerEnd : UInt64
  upperEnd : UInt64

structure IntervalSet where
  mIntervals : List Interval := []
  mNumElements : Nat := 0

namespace IntervalSet

def search (intervals : List Interval) (num : UInt64) (left right : Int) : Bool :=
  if left ≤ right then
    let mid := left + (right - left) / 2
    match intervals[mid.toNat]? with
    | none => false
    | some interval =>
      if interval.lowerEnd ≤ num ∧ num ≤ interval.upperEnd then true
      else if num < interval.lowerEnd then search intervals num left (mid - 1)
      else search intervals num (mid + 1) right
  else false
termination_by (right + 1 - left).toNat

def contains (set : IntervalSet) (num : UInt64) : Bool := search set.mIntervals num 0 (set.mIntervals.length - 1)

-- std::lower_bound splits before the first lower end not below the number. An empty vector has no neighbour to
-- join.
def insert (set : IntervalSet) (num : UInt64) : IntervalSet :=
  let before := set.mIntervals.takeWhile (·.lowerEnd < num)
  let after := set.mIntervals.dropWhile (·.lowerEnd < num)
  if after.head?.any (·.lowerEnd = num) ∨ before.getLast?.any (num ≤ ·.upperEnd) then set
  else
    { mIntervals :=
        match before.getLast?.filter (·.upperEnd + 1 = num), after.head?.filter (·.lowerEnd - 1 = num) with
        | some previous, some next => before.dropLast ++ ⟨previous.lowerEnd, next.upperEnd⟩ :: after.tail
        | some previous, none => before.dropLast ++ ⟨previous.lowerEnd, num⟩ :: after
        | none, some next => before ++ ⟨num, next.upperEnd⟩ :: after.tail
        | none, none => before ++ ⟨num, num⟩ :: after
      mNumElements := set.mNumElements + 1 }

def Holds (intervals : List Interval) (num : UInt64) : Prop :=
  ∃ interval ∈ intervals, interval.lowerEnd ≤ num ∧ num ≤ interval.upperEnd

def Gap (low high : UInt64) : Prop := ∃ missing, low < missing ∧ missing < high

def Apart (first second : Interval) : Prop := Gap first.upperEnd second.lowerEnd

structure Sound (intervals : List Interval) : Prop where
  proper : ∀ interval ∈ intervals, interval.lowerEnd ≤ interval.upperEnd
  apart : intervals.Pairwise Apart

structure Represents (set : IntervalSet) (nums : Finset UInt64) : Prop extends Sound set.mIntervals where
  holds : ∀ num, Holds set.mIntervals num ↔ num ∈ nums
  counted : set.mNumElements = nums.card

variable {intervals before after : List Interval} {num : UInt64}

theorem Sound.gap {i j : Nat} {first second : Interval} (sound : Sound intervals) (at_i : intervals[i]? = some first)
    (at_j : intervals[j]? = some second) (less : i < j) : Apart first second := by
  obtain ⟨_, rfl⟩ := List.getElem?_eq_some_iff.mp at_i
  obtain ⟨_, rfl⟩ := List.getElem?_eq_some_iff.mp at_j
  exact pairwise_iff_getElem.mp sound.apart i j _ _ less

-- Every interval that can hold the number stays between the two ends.
theorem search_iff {left right : Int} (sound : Sound intervals) (low : 0 ≤ left) (high : right < intervals.length)
    (within : ∀ (i : Nat) interval, intervals[i]? = some interval → interval.lowerEnd ≤ num → num ≤ interval.upperEnd →
      left ≤ i ∧ i ≤ right) :
    search intervals num left right = true ↔ Holds intervals num := by
  fun_induction search intervals num left right with
  | case1 left right order mid absent =>
    rw [getElem?_eq_none_iff] at absent
    omega
  | case2 left right order mid interval found holds => exact iff_of_true rfl ⟨interval, mem_of_getElem? found, holds⟩
  | case3 left right order mid interval found misses below ih =>
    refine ih low (by omega) fun i other at_i lower upper => ⟨(within i other at_i lower upper).1, ?_⟩
    have proper := sound.proper interval (mem_of_getElem? found)
    have gap := sound.gap found at_i
    grind [Apart, Gap]
  | case4 left right order mid interval found misses above ih =>
    refine ih (by omega) high fun i other at_i lower upper => ⟨?_, (within i other at_i lower upper).2⟩
    have gap := sound.gap at_i found
    grind [Apart, Gap]
  | case5 left right done =>
    refine iff_of_false Bool.false_ne_true fun ⟨interval, mem, lower, upper⟩ => ?_
    obtain ⟨i, at_i⟩ := getElem?_of_mem mem
    have := within i interval at_i lower upper
    omega

-- What a new number takes over of the intervals before and after it.
def TakesBefore (before rest : List Interval) (lower num : UInt64) : Prop :=
  lower ≤ num ∧ (∀ other ∈ before, other.upperEnd < num) ∧ ∃ taken, before = rest ++ taken ∧
    (∀ other ∈ rest, Gap other.upperEnd lower) ∧ ∀ n, lower ≤ n ∧ n ≤ num ↔ n = num ∨ Holds taken n

def TakesAfter (after rest : List Interval) (num upper : UInt64) : Prop :=
  num ≤ upper ∧ (∀ other ∈ after, num < other.lowerEnd) ∧ ∃ taken, after = taken ++ rest ∧
    (∀ other ∈ rest, Gap upper other.lowerEnd) ∧ ∀ n, num ≤ n ∧ n ≤ upper ↔ n = num ∨ Holds taken n

theorem Represents.joined {count : Nat} {nums : Finset UInt64} {rest tail : List Interval} {lower upper : UInt64}
    (sound : Represents ⟨before ++ after, count⟩ nums) (left : TakesBefore before rest lower num)
    (right : TakesAfter after tail num upper) :
    Represents ⟨rest ++ ⟨lower, upper⟩ :: tail, count + 1⟩ (Insert.insert num nums) := by
  obtain ⟨low, below, taken, rfl, left, leftHolds⟩ := left
  obtain ⟨high, above, taken', rfl, right, rightHolds⟩ := right
  have fresh : num ∉ nums := by
    rw [← sound.holds]
    grind [Holds]
  have old := sound.proper
  have apart := sound.apart
  have held := sound.holds
  simp only [append_assoc, pairwise_append, mem_append] at apart
  simp only [Holds, mem_append, or_and_right, exists_or] at held leftHolds rightHolds
  refine ⟨⟨?_, ?_⟩, fun n => ?_, Finset.card_insert_of_notMem fresh ▸ congrArg (· + 1) sound.counted⟩
  · grind
  · simp only [pairwise_append, pairwise_cons, mem_cons]
    grind [Apart]
  · have lefts := leftHolds n
    have rights := rightHolds n
    simp only [Holds, mem_append, or_and_right, exists_or, mem_cons, exists_eq_left, Finset.mem_insert, ← held]
    grind

theorem takes_before (sound : Sound before) (below : ∀ interval ∈ before, interval.lowerEnd < num)
    (free : ∀ last, before.getLast? = some last → ¬num ≤ last.upperEnd) :
    match before.getLast?.filter (·.upperEnd + 1 = num) with
    | some prev => TakesBefore before before.dropLast prev.lowerEnd num
    | none => TakesBefore before before num num := by
  obtain rfl | ⟨rest, last, rfl⟩ := before.eq_nil_or_concat'
  · exact ⟨UInt64.le_refl _, nofun, [], rfl, nofun, by grind [Holds]⟩
  have less := below last (by simp)
  have more := free last getLast?_concat
  have proper := sound.proper last (by simp)
  have gaps : ∀ other ∈ rest, Gap other.upperEnd last.lowerEnd :=
    fun other mem => (pairwise_append.mp sound.apart).2.2 other mem last mem_cons_self
  have ends : ∀ other ∈ rest ++ [last], other.upperEnd < num := by grind [Gap]
  by_cases joins : last.upperEnd + 1 = num
  · simp only [getLast?_concat, Option.filter, joins, decide_true, if_true, dropLast_concat]
    exact ⟨UInt64.le_of_lt less, ends, [last], rfl, gaps, by grind [Holds]⟩
  · simp only [getLast?_concat, Option.filter, joins, decide_false, Bool.false_eq_true, if_false]
    have room : Gap last.upperEnd num := ⟨last.upperEnd + 1, by grind, by grind⟩
    exact ⟨UInt64.le_refl _, ends, [], (append_nil _).symm, by grind [Gap], by grind [Holds]⟩

theorem takes_after (sound : Sound after) (above : ∀ next ∈ after.head?, num ≤ next.lowerEnd)
    (free : ∀ next, after.head? = some next → next.lowerEnd ≠ num) :
    match after.head?.filter (·.lowerEnd - 1 = num) with
    | some next => TakesAfter after after.tail num next.upperEnd
    | none => TakesAfter after after num num := by
  obtain _ | ⟨next, rest⟩ := after
  · exact ⟨UInt64.le_refl _, nofun, [], rfl, nofun, by grind [Holds]⟩
  have least := above next rfl
  have more := free next rfl
  have proper := sound.proper next mem_cons_self
  have gaps : ∀ other ∈ rest, Gap next.upperEnd other.lowerEnd := (pairwise_cons.mp sound.apart).1
  have starts : ∀ other ∈ next :: rest, num < other.lowerEnd := by grind [Gap]
  by_cases joins : next.lowerEnd - 1 = num
  · simp only [head?_cons, Option.filter, joins, decide_true, if_true, tail_cons]
    exact ⟨UInt64.le_trans least proper, starts, [next], rfl, gaps, by grind [Holds]⟩
  · simp only [head?_cons, Option.filter, joins, decide_false, Bool.false_eq_true, if_false]
    have room : Gap num next.lowerEnd := ⟨num + 1, by grind, by grind⟩
    exact ⟨UInt64.le_refl _, starts, [], rfl, by grind [Gap], by grind [Holds]⟩

theorem Represents.insert {set : IntervalSet} {nums : Finset UInt64} (sound : Represents set nums) (num : UInt64) :
    Represents (set.insert num) (Insert.insert num nums) := by
  obtain ⟨intervals, count⟩ := set
  have parts := takeWhile_append_dropWhile (p := (·.lowerEnd < num)) (l := intervals)
  have below : ∀ other ∈ intervals.takeWhile (·.lowerEnd < num), other.lowerEnd < num :=
    fun other mem => by simpa using mem_takeWhile_imp mem
  have above : ∀ next ∈ (intervals.dropWhile (·.lowerEnd < num)).head?, num ≤ next.lowerEnd := by
    intro next head
    have := head?_dropWhile_not (·.lowerEnd < num) intervals
    rw [Option.mem_def.mp head] at this
    simpa using this
  simp only [IntervalSet.insert]
  generalize intervals.takeWhile (·.lowerEnd < num) = before at *
  generalize intervals.dropWhile (·.lowerEnd < num) = after at *
  subst parts
  split
  case isTrue held =>
    simp only [Option.any_eq_true, decide_eq_true_eq] at held
    rwa [Finset.insert_eq_of_mem]
    rw [← sound.holds]
    obtain ⟨next, head, rfl⟩ | ⟨prev, last, within⟩ := held
    · have mem := mem_append_right before (mem_of_head? head)
      exact ⟨next, mem, UInt64.le_refl _, sound.proper next mem⟩
    · have mem := mem_of_getLast? last
      exact ⟨prev, mem_append_left _ mem, UInt64.le_of_lt (below prev mem), within⟩
  case isFalse free =>
    simp only [Option.any_eq_true, decide_eq_true_eq, not_or, not_exists, not_and] at free
    have apart := pairwise_append.mp sound.apart
    have left := takes_before ⟨fun interval mem => sound.proper interval (mem_append_left _ mem), apart.1⟩ below free.2
    have right := takes_after ⟨fun interval mem => sound.proper interval (mem_append_right _ mem), apart.2.1⟩ above free.1
    generalize before.getLast?.filter _ = prev at *
    generalize after.head?.filter _ = next at *
    cases prev <;> cases next <;> exact sound.joined left right

theorem run_represents (nums : List UInt64) : Represents (nums.foldl IntervalSet.insert {}) nums.toFinset := by
  induction nums using reverseRecOn with
  | nil => exact ⟨⟨by simp, .nil⟩, by simp [Holds], rfl⟩
  | append_singleton nums num ih => simpa using ih.insert num

theorem intervals_refine_numbers (nums : List UInt64) :
    let set := nums.foldl IntervalSet.insert {}
    (∀ interval ∈ set.mIntervals, interval.lowerEnd ≤ interval.upperEnd) ∧ set.mIntervals.Pairwise Apart ∧
      (∀ num, set.contains num = true ↔ num ∈ nums) ∧ set.mNumElements = nums.toFinset.card := by
  have sound := run_represents nums
  refine ⟨sound.proper, sound.apart, fun num => ?_, sound.counted⟩
  rw [contains, search_iff sound.toSound le_rfl (by omega), sound.holds, mem_toFinset]
  intro i interval at_i _ _
  have := (List.getElem?_eq_some_iff.mp at_i).1
  omega

end IntervalSet

end TrtLlm.Executor
