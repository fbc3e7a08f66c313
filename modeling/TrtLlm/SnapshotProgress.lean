import TrtLlm.ChunkBudget

set_option autoImplicit false

namespace TrtLlm.Batch
open List TrtLlm.Lib LlmRequest

-- Some prompt is left, the estimate leaves at least one token to compute and is not in the cursor yet.
structure PendingContext (req : LlmRequest) : Prop where
  phase : req.isContextInitState
  unfinished : req.contextCurrentPosition < req.promptLen
  recoverable : req.isFirstContextChunk → req.estimatedReusableTokens < req.promptLen
  unapplied : req.isFirstContextChunk → req.estimatedReusableTokens = 0 ∨ req.contextCurrentPosition = 0

def LlmRequest.computeRemaining (req : LlmRequest) : Nat := req.promptLen - req.snapshotStart

theorem snapshot_start_lt {req : LlmRequest} (pending : PendingContext req) : req.snapshotStart < req.promptLen := by
  have unfinished := pending.unfinished
  have recoverable := pending.recoverable
  unfold snapshotStart
  split_ifs with first
  · have room := recoverable first
    omega
  · omega

theorem policy_compute_pending {req : LlmRequest} (pending : PendingContext req) {size : Nat}
    (fits : size ≤ req.getContextRemainingLength) : req.policyCompute size = min size req.computeRemaining := by
  have recoverable := pending.recoverable
  have unapplied := pending.unapplied
  unfold policyCompute policyReusable computeRemaining snapshotStart
    reuseAdjustedCompute
  unfold getContextRemainingLength at fits ⊢
  by_cases first : req.isFirstContextChunk
  · have room := recoverable first
    simp only [first, if_true]
    rcases unapplied first with none | origin
    · simp only [none, Nat.zero_min, Nat.max_zero, if_true]
      omega
    · simp only [origin, Nat.sub_zero, Nat.zero_max, min_eq_left (le_of_lt room)] at fits ⊢
      split_ifs <;> omega
  · simp only [first, Bool.false_eq_true, if_false, if_true, Nat.max_zero]
    omega

theorem compute_remaining_le (req : LlmRequest) : req.computeRemaining ≤ req.getContextRemainingLength := by
  unfold computeRemaining snapshotStart getContextRemainingLength
  omega

section Boundaries

theorem shift_boundaries_lt (items : List (Int × Int)) (promptLen tokensPerBlock interval prev : Nat)
    (points : List Nat) (inside : ∀ point ∈ points, point < promptLen) :
    ∀ point ∈ shiftBoundaries items promptLen tokensPerBlock interval prev points, point < promptLen := by
  induction points generalizing prev with
  | nil => exact fun _ mem => nomatch mem
  | cons boundary rest ih =>
    have tail := (forall_mem_cons.mp inside).2
    unfold shiftBoundaries
    split_ifs
    · exact ih prev tail
    have here := inside boundary mem_cons_self
    refine forall_mem_cons.mpr ⟨?_, ih _ tail⟩
    unfold selectBoundary
    split
    · exact here
    dsimp only
    split_ifs with shifted
    · exact shifted.1
    · exact here

theorem periodic_boundaries_lt (promptLen interval : Nat) (pos : 0 < interval) :
    ∀ point ∈ periodicBoundaries promptLen interval, point < promptLen := by
  intro point mem
  obtain ⟨k, listed, rfl⟩ := mem_map.mp mem
  have count : k + 1 ≤ (promptLen - 1) / interval := mem_range.mp listed
  have product := (Nat.le_div_iff_mul_le pos).mp count
  have step : 0 < (k + 1) * interval := Nat.mul_pos (Nat.succ_pos k) pos
  omega

theorem recurrent_boundaries_ok (req : LlmRequest) {tokensPerBlock interval : Nat} {boundaries : List Nat}
    (run : getRecurrentStateSnapshotBoundaries req tokensPerBlock interval = .ok boundaries) :
    boundaries.Pairwise (· ≤ ·) ∧ ∀ point ∈ boundaries, point < req.promptLen := by
  unfold getRecurrentStateSnapshotBoundaries at run
  split_ifs at run with layout
  cases run
  exact ⟨(pairwise_insertionSort (· ≤ ·) _).sublist (destutter_sublist _ _), fun point mem => shift_boundaries_lt _ _ _ _ _ _
    (periodic_boundaries_lt _ _ layout.2.1) point ((mem_insertionSort (· ≤ ·)).mp ((destutter_sublist _ _).subset mem))⟩

theorem le_get_last (points : List Nat) (low : Nat) (above : ∀ point ∈ points, low ≤ point) : low ≤ points.getLastD low := by
  rw [getLastD_eq_getLast?]
  cases last : points.getLast? with
  | none => exact le_rfl
  | some point => exact above point (mem_of_getLast? last)

theorem last_reaches_iff (boundaries : List Nat) (sorted : boundaries.Pairwise (· ≤ ·)) (start limit prompt : Nat)
    (below : limit < prompt) : start < (boundaries.takeWhile (· ≤ limit)).getLastD start ↔
      (boundaries.find? (start < ·)).getD prompt ≤ limit := by
  induction boundaries with
  | nil =>
    simp only [takeWhile_nil, getLastD_nil, lt_irrefl, find?_nil, Option.getD_none, false_iff]
    omega
  | cons point rest ih =>
    obtain ⟨head, tail⟩ := pairwise_cons.mp sorted
    by_cases low : point ≤ limit
    · rw [takeWhile_cons_of_pos (by simpa using low), getLastD_cons]
      by_cases past : start < point
      · have above := le_get_last (rest.takeWhile (· ≤ limit)) point
          fun next mem => head next ((takeWhile_sublist _).subset mem)
        rw [find?_cons_of_pos (by simpa using past), Option.getD_some]
        exact ⟨fun _ => low, fun _ => lt_of_lt_of_le past above⟩
      · rw [find?_cons_of_neg (by simpa using past), ← ih tail]
        cases rest.takeWhile _ with
        | nil => simp; omega
        | cons _ _ => rfl
    rw [takeWhile_cons_of_neg (by simpa using low), getLastD_nil]
    refine ⟨fun absurd => (lt_irrefl _ absurd).elim, fun reached => ?_⟩
    cases found : (point :: rest).find? (start < ·) with
    | none =>
      rw [found, Option.getD_none] at reached
      omega
    | some next =>
      rw [found, Option.getD_some] at reached
      rcases mem_cons.mp (mem_of_find?_eq_some found) with rfl | mem
      · omega
      · have order := head next mem
        omega

end Boundaries

section Alignment
variable (interval visualTokensPerBlock lastTokensPerBlock : Nat)

structure SnapshotLayout : Prop where
  positive : 0 < interval
  aligned : 0 < visualTokensPerBlock → interval % visualTokensPerBlock = 0

def requiredChunkSize (req : LlmRequest) : Nat :=
  match nextSnapshotBoundary interval visualTokensPerBlock lastTokensPerBlock req with
  | .ok next => next - req.snapshotStart
  | .error _ => 0

section
variable (layout : SnapshotLayout interval visualTokensPerBlock)

include layout

theorem recurrent_boundaries_total (visual : 0 < visualTokensPerBlock) (req : LlmRequest) :
    ∃ boundaries, getRecurrentStateSnapshotBoundaries req visualTokensPerBlock interval = .ok boundaries :=
  ⟨_, if_pos ⟨visual, layout.positive, layout.aligned visual⟩⟩

section
variable {req : LlmRequest} (pending : PendingContext req)

include pending

theorem next_planned_boundary : ∃ next, nextPlannedBoundary interval visualTokensPerBlock req = .ok next ∧
      req.snapshotStart < next ∧ next ≤ req.promptLen := by
  have start := snapshot_start_lt pending
  unfold nextPlannedBoundary
  by_cases visual : 0 < visualTokensPerBlock
  · obtain ⟨boundaries, plan⟩ := recurrent_boundaries_total interval visualTokensPerBlock layout visual req
    obtain ⟨_, inside⟩ := recurrent_boundaries_ok req plan
    rw [if_pos visual, plan]
    refine ⟨_, rfl, ?_⟩
    dsimp only
    cases found : boundaries.find? (req.snapshotStart < ·) with
    | none => exact ⟨start, le_rfl⟩
    | some next =>
      exact ⟨by simpa using find?_some found, le_of_lt (inside next (mem_of_find?_eq_some found))⟩
  · rw [if_neg visual]
    have past : req.snapshotStart < (req.snapshotStart / interval + 1) * interval := by
      have split := Nat.div_add_mod req.snapshotStart interval
      have small := Nat.mod_lt req.snapshotStart layout.positive
      rw [Nat.add_mul, Nat.one_mul, Nat.mul_comm]
      omega
    exact ⟨_, rfl, Nat.lt_min.mpr ⟨start, past⟩, min_le_left _ _⟩

theorem next_snapshot_boundary : ∃ next, nextSnapshotBoundary interval visualTokensPerBlock lastTokensPerBlock req = .ok next ∧
      req.snapshotStart < next ∧ next ≤ req.promptLen := by
  obtain ⟨planned, plan, past, inside⟩ := next_planned_boundary interval visualTokensPerBlock layout pending
  refine ⟨_, by rw [nextSnapshotBoundary, plan]; rfl, ?_⟩
  split_ifs with last
  · exact ⟨Nat.lt_min.mpr ⟨past, last.2⟩, le_trans (min_le_left _ _) inside⟩
  · exact ⟨past, inside⟩

theorem required_chunk_bounds : 0 < requiredChunkSize interval visualTokensPerBlock lastTokensPerBlock req ∧
      requiredChunkSize interval visualTokensPerBlock lastTokensPerBlock req ≤ req.computeRemaining := by
  obtain ⟨next, found, past, inside⟩ := next_snapshot_boundary interval visualTokensPerBlock lastTokensPerBlock layout pending
  simp only [requiredChunkSize, found, computeRemaining]
  omega

theorem step_aligned_reaches : ∃ size, stepAlignedSize interval visualTokensPerBlock lastTokensPerBlock req = .ok size ∧
      (0 < size ↔ requiredChunkSize interval visualTokensPerBlock lastTokensPerBlock req ≤ req.contextChunkSize) := by
  obtain ⟨next, found, past, _⟩ := next_snapshot_boundary interval visualTokensPerBlock lastTokensPerBlock layout pending
  refine ⟨_, by rw [stepAlignedSize, found]; rfl, ?_⟩
  simp only [requiredChunkSize, found]
  split_ifs <;> omega

theorem engine_boundary_reaches : ∃ reached planned, engineBoundary interval visualTokensPerBlock req = .ok reached ∧
      nextPlannedBoundary interval visualTokensPerBlock req = .ok planned ∧
      (req.snapshotStart < reached ↔ planned ≤ req.snapshotLimit) := by
  obtain ⟨planned, plan, past, inside⟩ := next_planned_boundary interval visualTokensPerBlock layout pending
  have limit : req.snapshotLimit ≤ req.promptLen := by
    unfold snapshotLimit
    omega
  unfold engineBoundary
  by_cases whole : req.snapshotLimit = req.promptLen
  · refine ⟨req.promptLen, planned, ?_, plan, by omega⟩
    rw [if_neg (by omega), if_pos whole]
  unfold nextPlannedBoundary at plan ⊢
  by_cases visual : 0 < visualTokensPerBlock
  · obtain ⟨boundaries, listed⟩ := recurrent_boundaries_total interval visualTokensPerBlock layout visual req
    obtain ⟨sorted, _⟩ := recurrent_boundaries_ok req listed
    rw [if_pos ⟨visual, by omega⟩, if_pos visual, listed]
    exact ⟨_, _, rfl, rfl, last_reaches_iff boundaries sorted _ _ _ (by omega)⟩
  rw [if_neg (fun both => visual both.1), if_neg whole, if_neg visual]
  refine ⟨_, _, rfl, rfl, ?_⟩
  have reach : req.snapshotStart < req.snapshotLimit / interval * interval ↔
      (req.snapshotStart / interval + 1) * interval ≤ req.snapshotLimit := by
    rw [← Nat.le_div_iff_mul_le layout.positive, Nat.succ_le_iff, Nat.div_lt_iff_lt_mul layout.positive]
  omega

theorem engine_aligned_reaches : ∃ size, engineAlignedSize interval visualTokensPerBlock lastTokensPerBlock req = .ok size ∧
      (0 < size ↔ requiredChunkSize interval visualTokensPerBlock lastTokensPerBlock req ≤ req.contextChunkSize) := by
  obtain ⟨reached, planned, engine, plan, reaches⟩ := engine_boundary_reaches interval visualTokensPerBlock layout pending
  obtain ⟨next, found, past, inside⟩ := next_snapshot_boundary interval visualTokensPerBlock lastTokensPerBlock layout pending
  refine ⟨_, by rw [engineAlignedSize, engine]; rfl, ?_⟩
  have required : requiredChunkSize interval visualTokensPerBlock lastTokensPerBlock req ≤ req.contextChunkSize ↔
      next ≤ req.snapshotLimit := by
    simp only [requiredChunkSize, found, snapshotLimit]
    omega
  rw [required]
  rw [nextSnapshotBoundary, plan] at found
  cases found
  dsimp only at past inside ⊢
  split_ifs at past inside ⊢ <;> omega

end
end
end Alignment
end TrtLlm.Batch
