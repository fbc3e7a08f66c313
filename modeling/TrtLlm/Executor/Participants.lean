import Mathlib

set_option autoImplicit false

namespace TrtLlm.Executor
open List

def getPipelineParallelRank (tp cp rank : Nat) : Nat := rank / (tp * cp)

def getTensorParallelRank (tp cp rank : Nat) : Nat := rank % (tp * cp) / cp

def getContextParallelRank (cp rank : Nat) : Nat := rank % cp

structure Participants (tp pp cp : Nat) where
  ids : List Nat
  distinct : ids.Nodup
  size : ids.length = tp * pp * cp
  tp_pos : 0 < tp
  pp_pos : 0 < pp
  cp_pos : 0 < cp

def IsLeader (ids : List Nat) (worldRank : Nat) : Prop := ids[0]? = some worldRank

def IsPipelineLeader (tp pp : Nat) (ids : List Nat) (worldRank : Nat) : Prop := ids[tp * (pp - 1)]? = some worldRank

-- std::reverse from start up to stop.
def reverseRange (start stop : Nat) (ids : List Nat) : List Nat :=
  ids.take start ++ ((ids.take stop).drop start).reverse ++ ids.drop stop

def reverseGroups (size : Nat) (ids : List Nat) (count : Nat) : List Nat :=
  (List.range count).foldl (fun ids group => reverseRange (group * size) ((group + 1) * size) ids) ids

-- The participants by session rank. Of the reversed list only pp groups of tp are reversed back.
def sessionOrder (tp pp : Nat) (ids : List Nat) : List Nat :=
  if 1 < pp then
    if 1 < tp then reverseGroups tp ids.reverse pp else ids.reverse
  else ids

structure WellPlaced (tp pp cp : Nat) (ids order : List Nat) : Prop where
  perm : order.Perm ids
  pipelineLeader : ∀ rank id : Nat, order[rank]? = some id → IsPipelineLeader tp pp ids id → rank = 0
  leader : ∀ rank id : Nat, order[rank]? = some id → IsLeader ids id →
    getPipelineParallelRank tp cp rank = pp - 1 ∧ getTensorParallelRank tp cp rank = 0 ∧ getContextParallelRank cp rank = 0
  groups : ∀ group < pp, ∃ stage, ∀ k < tp * cp, ∃ rank,
    getPipelineParallelRank tp cp rank = stage ∧ rank % (tp * cp) = k ∧
    order[rank]? = ids[group * (tp * cp) + k]?

section Reversal
variable {start stop size : Nat} (ids : List Nat)

theorem reverse_range_perm (ordered : start ≤ stop) : (reverseRange start stop ids).Perm ids := by
  have front : (ids.take stop).take start = ids.take start := by rw [take_take, Nat.min_eq_left ordered]
  calc
    _ ~ ids.take start ++ (ids.take stop).drop start ++ ids.drop stop := ((reverse_perm _).append_left _).append_right _
    _ = ids := by rw [← front, take_append_drop, take_append_drop]

theorem reverse_range_at (ordered : start ≤ stop) (inside : stop ≤ ids.length) (i : Nat) :
    (reverseRange start stop ids)[i]? = ids[if start ≤ i ∧ i < stop then start + stop - 1 - i else i]? := by
  have front : (ids.take start).length = start := length_take_of_le (by omega)
  have mid : ((ids.take stop).drop start).length = stop - start := by rw [length_drop, length_take_of_le inside]
  rw [reverseRange, append_assoc, getElem?_append, front, getElem?_append, length_reverse, mid]
  split_ifs with early both inner both
  · omega
  · rw [getElem?_take_of_lt early]
  · rw [getElem?_reverse (by omega), mid, getElem?_drop, getElem?_take_of_lt (by omega)]
    congr 1
    omega
  · omega
  · omega
  · rw [getElem?_drop]
    congr 1
    omega

theorem reverse_groups_perm (count : Nat) : (reverseGroups size ids count).Perm ids := by
  induction count with
  | zero => exact .refl _
  | succ count ih =>
    rw [reverseGroups, range_succ, foldl_append]
    exact (reverse_range_perm _ (Nat.mul_le_mul_right _ (Nat.le_succ _))).trans ih

theorem reverse_groups_at (count : Nat) (inside : count * size ≤ ids.length) (i : Nat) :
    (reverseGroups size ids count)[i]? = ids[if i < count * size then i / size * size + (size - 1 - i % size) else i]? := by
  induction count generalizing i with
  | zero => simp [reverseGroups]
  | succ count ih =>
    have grown : (count + 1) * size = count * size + size := Nat.succ_mul _ _
    have length : (reverseGroups size ids count).length = ids.length := (reverse_groups_perm ids count).length_eq
    rw [reverseGroups, range_succ, foldl_append]
    change (reverseRange _ _ (reverseGroups size ids count))[i]? = _
    rw [reverse_range_at _ (by omega) (by omega), ih (by omega)]
    by_cases here : count * size ≤ i ∧ i < (count + 1) * size
    · have place := Nat.div_add_mod' i size
      rw [Nat.div_eq_of_lt_le here.1 here.2] at place ⊢
      rw [if_pos here, if_neg (by omega), if_pos here.2]
      congr 1
      omega
    · rw [if_neg here]
      split_ifs <;> first | rfl | omega

end Reversal

variable {tp pp cp : Nat} (participants : Participants tp pp cp)

theorem session_order_perm (ids : List Nat) : (sessionOrder tp pp ids).Perm ids := by
  unfold sessionOrder
  split_ifs
  · exact (reverse_groups_perm _ _).trans (reverse_perm ids)
  · exact reverse_perm ids
  · exact .refl ids

theorem session_order_at (several : 1 < pp) {i : Nat} (early : i < pp * tp) : (sessionOrder tp pp participants.ids)[i]? =
    participants.ids[tp * pp * cp - 1 - (i / tp * tp + (tp - 1 - i % tp))]? := by
  have enough : pp * tp ≤ participants.ids.length := by
    rw [participants.size, Nat.mul_comm]
    exact Nat.le_mul_of_pos_right _ participants.cp_pos
  have place := Nat.div_add_mod' i tp
  have below := Nat.mod_lt i participants.tp_pos
  have later : (i / tp + 1) * tp ≤ pp * tp := Nat.mul_le_mul_right _ (Nat.div_lt_of_lt_mul (Nat.mul_comm pp tp ▸ early))
  rw [Nat.succ_mul] at later
  rw [← participants.size, ← getElem?_reverse (by omega), sessionOrder, if_pos several]
  split_ifs with grouped
  · rw [reverse_groups_at _ _ (by rwa [length_reverse]), if_pos early]
  · have single : tp = 1 := by omega
    simp [single]

-- With one stage or one context rank a stage holds the group as far from the end.
theorem stage_entry (flat : pp = 1 ∨ cp = 1) {stage k : Nat} (staged : stage < pp) (placed : k < tp * cp) :
    (sessionOrder tp pp participants.ids)[stage * (tp * cp) + k]? = participants.ids[(pp - 1 - stage) * (tp * cp) + k]? := by
  by_cases several : 1 < pp
  · obtain rfl : cp = 1 := by omega
    rw [Nat.mul_one] at placed ⊢
    have rest : (pp - 1 - stage) * tp + (stage + 1) * tp = pp * tp := by
      rw [← Nat.add_mul]
      congr 1
      omega
    rw [Nat.succ_mul] at rest
    rw [session_order_at participants several (by omega), Nat.mul_add_mod_of_lt placed, Nat.mul_comm stage,
      Nat.mul_add_div participants.tp_pos, Nat.div_eq_of_lt placed, Nat.add_zero, Nat.mul_one, Nat.mul_comm tp pp]
    congr 1
    omega
  · obtain rfl : pp = 1 := by omega
    obtain rfl : stage = 0 := by omega
    rfl

theorem entry_of_group (flat : pp = 1 ∨ cp = 1) {rank id group : Nat}
    (here : (sessionOrder tp pp participants.ids)[rank]? = some id)
    (there : participants.ids[group * (tp * cp)]? = some id) : group + rank / (tp * cp) = pp - 1 ∧ rank % (tp * cp) = 0 := by
  have pos := Nat.mul_pos participants.tp_pos participants.cp_pos
  obtain ⟨inside, _⟩ := List.getElem?_eq_some_iff.mp here
  obtain ⟨below, _⟩ := List.getElem?_eq_some_iff.mp there
  rw [(session_order_perm _).length_eq, participants.size, Nat.mul_right_comm] at inside
  have stage := Nat.div_lt_of_lt_mul inside
  rw [← Nat.div_add_mod' rank (tp * cp), stage_entry participants flat stage (Nat.mod_lt _ pos), ← there] at here
  have same := (getElem?_inj below participants.distinct).mp here.symm
  have place : rank % (tp * cp) = 0 := by simpa [Nat.mul_add_mod'] using (congrArg (· % (tp * cp)) same).symm
  rw [place, Nat.add_zero] at same
  rw [Nat.eq_of_mul_eq_mul_right pos same]
  exact ⟨Nat.sub_add_cancel (Nat.le_sub_one_of_lt stage), place⟩

theorem well_placed (flat : pp = 1 ∨ cp = 1) : WellPlaced tp pp cp participants.ids (sessionOrder tp pp participants.ids) := by
  have pos := Nat.mul_pos participants.tp_pos participants.cp_pos
  refine ⟨session_order_perm _, ?_, ?_, ?_⟩
  · intro rank id here named
    have idx : tp * (pp - 1) = (pp - 1) * (tp * cp) := by rcases flat with rfl | rfl <;> simp [Nat.mul_comm]
    rw [IsPipelineLeader, idx] at named
    obtain ⟨stage, place⟩ := entry_of_group participants flat here named
    rw [← Nat.div_add_mod' rank (tp * cp), place, Nat.add_eq_left.mp stage, Nat.zero_mul]
  · intro rank id here named
    obtain ⟨stage, place⟩ := entry_of_group participants flat here (show _[0 * (tp * cp)]? = _ by rwa [Nat.zero_mul])
    rw [getPipelineParallelRank, getTensorParallelRank, getContextParallelRank,
      ← Nat.mod_mod_of_dvd rank (Nat.dvd_mul_left cp tp), place]
    exact ⟨by omega, Nat.zero_div _, Nat.zero_mod _⟩
  · intro group within
    refine ⟨pp - 1 - group, fun k below => ⟨(pp - 1 - group) * (tp * cp) + k, ?_, Nat.mul_add_mod_of_lt below, ?_⟩⟩
    · rw [getPipelineParallelRank, Nat.mul_comm, Nat.mul_add_div pos, Nat.div_eq_of_lt below, Nat.add_zero]
    · rw [stage_entry participants flat (by omega) below, show pp - 1 - (pp - 1 - group) = group by omega]

theorem well_placed_iff (tp pp cp : Nat) (participants : Participants tp pp cp) :
    WellPlaced tp pp cp participants.ids (sessionOrder tp pp participants.ids) ↔ pp = 1 ∨ cp = 1 := by
  refine ⟨fun placed => ?_, well_placed participants⟩
  by_contra both
  have tpPos := participants.tp_pos
  have ppPos := participants.pp_pos
  have whole : tp * (pp - 1) + tp = tp * pp := by rw [← Nat.mul_succ, Nat.succ_eq_add_one, Nat.sub_add_cancel ppPos]
  have more : tp * pp ≤ tp * pp * cp := Nat.le_mul_of_pos_right _ participants.cp_pos
  have inside : tp * (pp - 1) < participants.ids.length := by
    rw [participants.size]
    omega
  obtain ⟨rank, here⟩ := mem_iff_getElem?.mp (placed.perm.mem_iff.mpr (getElem_mem inside))
  obtain rfl := placed.pipelineLeader rank _ here (getElem?_eq_getElem inside)
  rw [session_order_at participants (by omega) (Nat.mul_pos ppPos tpPos), Nat.zero_div, Nat.zero_mod,
    ← getElem?_eq_getElem inside] at here
  have same := (getElem?_inj inside participants.distinct).mp here.symm
  have single : tp * pp * cp = tp * pp * 1 := by omega
  exact both (.inr (Nat.eq_of_mul_eq_mul_left (Nat.mul_pos tpPos ppPos) single))

-- Two stages of two tensor parallel ranks: the last stage comes first, in its own order.
theorem grid_well_placed : ∃ participants : Participants 2 2 1, sessionOrder 2 2 participants.ids = [6, 7, 4, 5] ∧
    WellPlaced 2 2 1 participants.ids (sessionOrder 2 2 participants.ids) :=
  ⟨⟨[4, 5, 6, 7], by decide, rfl, by decide, by decide, by decide⟩, rfl, (well_placed_iff 2 2 1 _).mpr (.inr rfl)⟩

-- The pipeline leader is the second participant and comes third.
theorem context_ranks_misplaced : ∃ participants : Participants 1 2 2, participants.ids = [0, 1, 2, 3] ∧
    ¬WellPlaced 1 2 2 participants.ids (sessionOrder 1 2 participants.ids) := by
  refine ⟨⟨[0, 1, 2, 3], by decide, rfl, by decide, by decide, by decide⟩, rfl, fun placed => ?_⟩
  cases placed.pipelineLeader 2 1 rfl rfl

end TrtLlm.Executor
