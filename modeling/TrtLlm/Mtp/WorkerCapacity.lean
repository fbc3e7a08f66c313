import TrtLlm.Mtp.WorkerDraft

set_option autoImplicit false

namespace TrtLlm.Mtp
open List
open Lib (Table)

namespace Qwen35MtpWorker
variable (w : Qwen35MtpWorker)

def Roomy (state : RequestState) : Prop :=
  1 ≤ state.draftLength ∧ state.length + state.tokens.length + state.draftLength - 1 ≤ w.maxSequenceLength

theorem width_of_le {bound : Nat} {states : List RequestState} (low : 1 ≤ bound)
    (below : ∀ st ∈ states, st.tokens.length ≤ bound) : widthOf states ≤ bound := by
  unfold widthOf
  generalize 1 = width at low
  induction states generalizing width with
  | nil => exact low
  | cons st rest ih =>
    have here := below st mem_cons_self
    refine ih (forall_mem_cons.mp below).2 _ ?_
    exact max_le low here

variable (states : List RequestState)

theorem le_width_of (st : RequestState) (mem : st ∈ states) : st.tokens.length ≤ widthOf states := by
  unfold widthOf
  have grows : ∀ (rest : List RequestState) (width : Nat),
      width ≤ rest.foldl (fun width st => max width st.tokens.length) width := by
    intro rest
    induction rest with
    | nil => exact fun width => le_rfl
    | cons other rest ih => exact fun width => (le_max_left _ _).trans (ih _)
  generalize 1 = width
  induction states generalizing width with
  | nil => cases mem
  | cons other rest ih =>
    rcases mem_cons.mp mem with rfl | later
    · exact (le_max_right _ _).trans (grows rest _)
    · exact ih later _

theorem check_batch_capacity (present : states ≠ []) (small : states.length ≤ w.maxBatchSize)
    (room : ∀ front ∈ states, ∀ st ∈ states, st.length +
      (if front.context then st.tokens.length else if front.context then 1 else widthOf states) ≤ w.maxSequenceLength) :
    w.checkBatch states ≠ some .capacity := by
  cases states with
  | nil => exact absurd rfl present
  | cons front rest =>
    have clear := room front mem_cons_self
    intro failed
    rw [checkBatch, if_neg (not_lt.mpr small)] at failed
    cases checked : (front :: rest).findSome?
        (w.checkRow front.context (if front.context then 1 else widthOf (front :: rest))) with
    | some error =>
      rw [checked] at failed
      cases failed
      obtain ⟨st, mem, found⟩ := exists_of_findSome?_eq_some checked
      unfold checkRow at found
      split at found
      · cases found
      rw [if_neg (not_lt.mpr (clear st mem))] at found
      split at found
      · cases found
      split at found
      · cases found
      · cases found
    | none =>
      simp only [checked, checkCache] at failed
      split at failed
      · cases failed
      · cases failed

def RoomyAt (depth : Nat) (state : RequestState) : Prop :=
  depth ≤ state.draftLength → state.length + (state.draftLength - depth) ≤ w.maxSequenceLength

theorem draft_deeper_capacity (depth : Nat) (states : List RequestState) (small : states.length ≤ w.maxBatchSize)
    (room : ∀ st ∈ states, w.RoomyAt depth st) : (w.draftDeeper depth states).2 ≠ some .capacity := by
  simp only [draftDeeper]
  split
  · exact fun failed => by cases failed
  next idle =>
  rw [draftBatch]
  have fine : w.checkBatch ((states.filter fun st => decide (depth < st.draftLength)).map (speculate depth)) ≠
      some .capacity := by
    apply w.check_batch_capacity
    · exact fun empty => idle (isEmpty_iff.mpr empty)
    · rw [length_map]
      exact (length_filter_le _ _).trans small
    have shape : ∀ st ∈ (states.filter fun st => decide (depth < st.draftLength)).map (speculate depth),
        st.context = false ∧ st.tokens = [0] ∧ st.length + 1 ≤ w.maxSequenceLength := by
      intro st mem
      obtain ⟨before, chosen, rfl⟩ := mem_map.mp mem
      obtain ⟨old, deep⟩ := mem_filter.mp chosen
      rw [decide_eq_true_eq] at deep
      have left := room before old (le_of_lt deep)
      rw [speculate, if_pos deep]
      exact ⟨rfl, rfl, by dsimp only; omega⟩
    intro front frontMem st mem
    rw [(shape front frontMem).1]
    have narrow := width_of_le le_rfl fun other otherMem =>
      le_of_eq (congrArg List.length (shape other otherMem).2.1)
    have left := (shape st mem).2.2
    simp only [Bool.false_eq_true, if_false]
    omega
  cases checked : w.checkBatch ((states.filter fun st => decide (depth < st.draftLength)).map (speculate depth)) with
  | none => exact fun failed => by cases failed
  | some error =>
    rw [checked] at fine
    exact fine

theorem deepen_roomy (depth : Nat) (st : RequestState) (room : w.RoomyAt depth st) :
    w.RoomyAt (depth + 1) (w.deepen depth st) := by
  intro within
  rw [(w.deepen_keeps depth st).draftLength] at within ⊢
  have deep : depth < st.draftLength := within
  have left := room (Nat.le_of_succ_le within)
  have grown : (w.deepen depth st).length = st.length + 1 := by
    rw [deepen, if_pos deep, speculate, if_pos deep]
    rfl
  omega

theorem draft_depths_capacity (start count : Nat) (states : List RequestState) (small : states.length ≤ w.maxBatchSize)
    (room : ∀ st ∈ states, w.RoomyAt start st) : (w.draftDepths (List.range' start count) states).2 ≠ some .capacity := by
  induction count generalizing start states with
  | zero => exact fun failed => by cases failed
  | succ count ih =>
    have here := w.draft_deeper_capacity start states small room
    have changes := w.draft_deeper_changes start states
    rw [range'_succ, draftDepths]
    cases stage : w.draftDeeper start states with
    | mk drafted error =>
      rw [stage] at here changes
      cases error with
      | some error => exact here
      | none =>
        have draftedEq := w.changes_ok _ _ _ changes
        subst draftedEq
        apply ih (start + 1)
        · rw [length_map]
          exact small
        · exact forall_mem_map.mpr fun before old => w.deepen_roomy start before (room before old)

theorem draft_group_capacity (present : states ≠ [])
    (small : states.length ≤ w.maxBatchSize) (roomy : ∀ st ∈ states, w.Roomy st)
    (room : ∀ front ∈ states, ∀ st ∈ states, front.context = false → st.length + widthOf states ≤ w.maxSequenceLength) :
    (w.draftGroup states).2 ≠ some .capacity := by
  have first : w.checkBatch states ≠ some .capacity := by
    apply w.check_batch_capacity states present small
    intro front frontMem st mem
    have fits := roomy st mem
    cases kind : front.context with
    | true =>
      rw [if_pos rfl]
      have := fits.1
      have := fits.2
      omega
    | false => exact room front frontMem st mem kind
  rw [draftGroup, draftBatch]
  cases checked : w.checkBatch states with
  | some error =>
    rw [checked] at first
    exact first
  | none =>
    have deeper : (w.draftDepths (List.range' 1 (w.maxDraftLength - 1)) (states.map (w.advance 0))).2 ≠
        some .capacity := by
      apply w.draft_depths_capacity
      · rw [length_map]
        exact small
      intro st mem deep
      obtain ⟨before, old, rfl⟩ := mem_map.mp mem
      have fits := (roomy before old).2
      change before.length + before.tokens.length + (before.draftLength - 1) ≤ w.maxSequenceLength
      have := (roomy before old).1
      omega
    dsimp only
    cases stage : w.draftDepths (List.range' 1 (w.maxDraftLength - 1)) (states.map (w.advance 0)) with
    | mk drafted error =>
      rw [stage] at deeper
      cases error with
      | some error => exact deeper
      | none => exact fun failed => by cases failed

structure Drafted (merge : Bool) (width : Nat) (requests : Table Nat RequestState) : Prop where
  small : requests.length ≤ w.maxBatchSize
  roomy : ∀ entry ∈ requests, entry.2.queued = true → w.Roomy entry.2
  padded : merge = true → ∀ entry ∈ requests, entry.2.queued = true → entry.2.context = false →
    entry.2.tokens.length ≤ width ∧ entry.2.length + width ≤ w.maxSequenceLength

section
variable (merge : Bool) (width group : Nat) (requests : Table Nat RequestState)
    (ready : w.Drafted merge width requests)

include ready

theorem drafted_group : w.Drafted merge width (w.afterGroup merge group requests) := by
  have waiting : ∀ entry ∈ w.afterGroup merge group requests, entry.2.queued = true → entry ∈ requests := by
    intro entry mem queued
    obtain ⟨before, old, rfl⟩ := mem_map.mp mem
    by_cases here : inGroup merge group before.2 = true
    · simp only [if_pos here, RequestState.queued, w.outcome_tokens] at queued
      cases queued
    · simp only [if_neg here]
      exact old
  refine ⟨?_, ?_, ?_⟩
  · rw [afterGroup, length_map]
    exact ready.small
  · exact fun entry mem queued => ready.roomy entry (waiting entry mem queued) queued
  · exact fun merged entry mem queued => ready.padded merged entry (waiting entry mem queued) queued

theorem group_capacity (present : (requests.filter fun entry => inGroup merge group entry.2) ≠ []) :
    (w.draftGroup ((requests.filter fun entry => inGroup merge group entry.2).map Prod.snd)).2 ≠ some .capacity := by
  have members : ∀ st ∈ (requests.filter fun entry => inGroup merge group entry.2).map Prod.snd,
      ∃ id, (id, st) ∈ requests ∧ st.queued = true ∧ groupOf merge st = group := by
    intro st mem
    obtain ⟨entry, chosen, rfl⟩ := mem_map.mp mem
    obtain ⟨old, here⟩ := mem_filter.mp chosen
    rw [inGroup, Bool.and_eq_true, decide_eq_true_eq] at here
    exact ⟨entry.1, old, here.1, here.2⟩
  apply w.draft_group_capacity
  · exact fun empty => present (map_eq_nil_iff.mp empty)
  · rw [length_map]
    exact (length_filter_le _ _).trans ready.small
  · intro st mem
    obtain ⟨id, old, queued, _⟩ := members st mem
    exact ready.roomy (id, st) old queued
  intro front frontMem st mem gen
  -- A group with a generation request has no context request.
  have pos : group ≠ 0 := by
    obtain ⟨_, _, queued, grouped⟩ := members front frontMem
    rintro rfl
    rw [groupOf, gen, if_neg Bool.false_ne_true] at grouped
    cases merge with
    | true => cases grouped
    | false =>
      rw [if_neg Bool.false_ne_true, length_eq_zero_iff] at grouped
      rw [RequestState.queued, grouped] at queued
      cases queued
  have generations : ∀ other ∈ (requests.filter fun entry => inGroup merge group entry.2).map Prod.snd,
      other.context = false := by
    intro other otherMem
    obtain ⟨_, _, _, grouped⟩ := members other otherMem
    cases kind : other.context with
    | false => rfl
    | true =>
      rw [groupOf, kind, if_pos rfl] at grouped
      exact absurd grouped.symm pos
  obtain ⟨id, old, queued, grouped⟩ := members st mem
  cases merge with
  | true =>
    have narrow : ∀ other ∈ (requests.filter fun entry => inGroup true group entry.2).map Prod.snd,
        other.tokens.length ≤ width := by
      intro other otherMem
      obtain ⟨otherId, otherOld, otherQueued, _⟩ := members other otherMem
      exact (ready.padded rfl (otherId, other) otherOld otherQueued (generations other otherMem)).1
    have fits := ready.padded rfl (id, st) old queued (generations st mem)
    have low : 1 ≤ width := by
      refine le_trans ?_ fits.1
      rw [RequestState.queued, Bool.not_eq_true', isEmpty_eq_false_iff] at queued
      exact length_pos_iff.mpr queued
    have bound := width_of_le low narrow
    have := fits.2
    dsimp only at this
    omega
  | false =>
    have narrow : ∀ other ∈ (requests.filter fun entry => inGroup false group entry.2).map Prod.snd,
        other.tokens.length = group := by
      intro other otherMem
      obtain ⟨_, _, _, otherGroup⟩ := members other otherMem
      rw [groupOf, generations other otherMem, if_neg Bool.false_ne_true, if_neg Bool.false_ne_true] at otherGroup
      exact otherGroup
    have bound := width_of_le (Nat.one_le_iff_ne_zero.mpr pos) fun other otherMem =>
      le_of_eq (narrow other otherMem)
    have fits := ready.roomy (id, st) old queued
    have same := narrow st mem
    have := fits.1
    have := fits.2
    dsimp only at *
    omega

end

theorem draft_groups_capacity (merge : Bool) (width : Nat) (groups : List Nat) (requests : Table Nat RequestState)
    (ids : List Nat) (ready : w.Drafted merge width requests) :
    (w.draftGroups merge groups requests ids).2.2 ≠ some .capacity := by
  induction groups generalizing requests ids with
  | nil => exact fun failed => by cases failed
  | cons group groups ih =>
    simp only [draftGroups]
    split
    · exact ih requests ids ready
    next idle =>
    have here := w.group_capacity merge width group requests ready fun empty => idle (isEmpty_iff.mpr empty)
    have changes := w.draft_group_changes
      ((requests.filter fun entry => inGroup merge group entry.2).map Prod.snd)
    cases stage : w.draftGroup ((requests.filter fun entry => inGroup merge group entry.2).map Prod.snd) with
    | mk states error =>
      rw [stage] at changes here
      cases error with
      | some error => exact here
      | none =>
        dsimp only
        rw [w.changes_ok _ _ _ changes, write_back_map]
        exact ih _ _ (w.drafted_group merge width group requests ready)

theorem draft_device_capacity (small : w.requests.length ≤ w.maxBatchSize)
    (roomy : ∀ entry ∈ w.requests, entry.2.queued = true → w.Roomy entry.2) : w.draftDevice.2.2 ≠ some .capacity := by
  have ready : w.Drafted w.merges w.generationWidth w.requests := by
    refine ⟨small, roomy, ?_⟩
    intro merged entry mem queued gen
    constructor
    · apply le_width_of
      refine mem_filter.mpr ⟨mem_map.mpr ⟨entry, mem, rfl⟩, ?_⟩
      rw [gen]
      rfl
    · rw [merges, Bool.and_eq_true, all_eq_true] at merged
      have fits := merged.2 entry mem
      rw [RequestState.queued, Bool.not_eq_true'] at queued
      rw [gen, queued, Bool.false_or, Bool.false_or, decide_eq_true_eq] at fits
      exact fits
  exact w.draft_groups_capacity w.merges w.generationWidth _ w.requests [] ready

end Qwen35MtpWorker
end TrtLlm.Mtp
