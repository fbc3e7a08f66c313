import Mathlib

set_option autoImplicit false

namespace TrtLlm.Lib.Delimiter
open List

variable {α : Type} [DecidableEq α]

def find (tag text : List α) : Option Nat := text.tails.findIdx? fun rest => decide (tag <+: rest)

theorem find_some (tag text : List α) (i : Nat) : find tag text = some i ↔
    i ≤ text.length ∧ tag <+: text.drop i ∧ ∀ j < i, ¬tag <+: text.drop j := by
  simp [find, findIdx?_eq_some_iff_getElem, and_left_comm]

theorem find_none (tag text : List α) : find tag text = none ↔ ∀ i, ¬tag <+: text.drop i := by
  simp only [find, findIdx?_eq_none_iff, mem_tails, decide_eq_false_iff_not]
  constructor
  · intro absent i
    exact absent _ (drop_suffix i text)
  · intro absent rest suffix
    rw [suffix_iff_eq_drop.mp suffix]
    exact absent _

variable (tag buffer more : List α)

theorem find_append (i : Nat) (found : find tag buffer = some i) :
    find tag (buffer ++ more) = some i ∧ i + tag.length ≤ buffer.length := by
  obtain ⟨bound, here, before⟩ := (find_some tag buffer i).mp found
  have fits := here.length_le
  rw [length_drop] at fits
  refine ⟨(find_some tag _ i).mpr ⟨by rw [length_append]; omega, ?_, ?_⟩, by omega⟩
  · rw [drop_append_of_le_length bound]
    exact here.trans (prefix_append _ _)
  · intro j less there
    rw [drop_append_of_le_length (by omega)] at there
    refine before j less (prefix_of_prefix_length_le there (prefix_append _ _) ?_)
    rw [length_drop]
    omega

def partialSuffixLen (buf tag : List α) : Nat :=
  Nat.findGreatest (fun k => buf.drop (buf.length - k) <+: tag) (min buf.length (tag.length - 1))

-- No tag starts in the part of the buffer that is not held back.
theorem no_tag_before_held (absent : find tag buffer = none) (i : Nat)
    (emitted : i < buffer.length - partialSuffixLen buffer tag) : ¬tag <+: (buffer ++ more).drop i := by
  intro there
  rw [drop_append_of_le_length (by omega)] at there
  have absent := (find_none tag buffer).mp absent i
  rcases prefix_or_prefix_of_prefix there (prefix_append _ more) with inside | straddles
  · exact absent inside
  · have longer : buffer.length - i ≤ tag.length := by simpa using straddles.length_le
    by_cases whole : buffer.length - i = tag.length
    · rw [straddles.eq_of_length (by rw [length_drop, whole])] at absent
      exact absent (prefix_refl tag)
    · refine Nat.findGreatest_is_greatest (k := buffer.length - i) (n := min buffer.length (tag.length - 1))
        (P := fun k => buffer.drop (buffer.length - k) <+: tag) ?_ (by omega) ?_
      · change partialSuffixLen buffer tag < _
        omega
      · rwa [show buffer.length - (buffer.length - i) = i by omega]

theorem find_held (absent : find tag buffer = none) (emitLen : Nat)
    (size : emitLen = buffer.length - partialSuffixLen buffer tag) :
    find tag (buffer ++ more) = (find tag (buffer.drop emitLen ++ more)).map (emitLen + ·) := by
  have before := no_tag_before_held tag buffer more absent
  rw [← size] at before
  have shift : ∀ i, (buffer ++ more).drop (emitLen + i) = (buffer.drop emitLen ++ more).drop i := by
    intro i
    rw [← drop_drop, drop_append_of_le_length (by omega)]
  cases later : find tag (buffer.drop emitLen ++ more) with
  | none =>
    rw [Option.map_none, find_none]
    rw [find_none] at later
    intro i there
    by_cases early : i < emitLen
    · exact before i early there
    · rw [show i = emitLen + (i - emitLen) by omega, shift] at there
      exact later _ there
  | some i =>
    rw [Option.map_some, find_some]
    obtain ⟨bound, here, first⟩ := (find_some _ _ _).mp later
    rw [length_append, length_drop] at bound
    refine ⟨by rw [length_append]; omega, by rwa [shift], fun j less there => ?_⟩
    by_cases early : j < emitLen
    · exact before j early there
    · rw [show j = emitLen + (j - emitLen) by omega, shift] at there
      exact first _ (by omega) there

end TrtLlm.Lib.Delimiter
