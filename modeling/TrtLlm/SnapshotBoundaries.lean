import TrtLlm.Request

set_option autoImplicit false

namespace TrtLlm.Batch
open List

def kMultimodalHashPartCount : Nat := 8

def validMultimodalItem (origPromptLen : Nat) (hash : List Nat) (position length : Int) : Bool :=
  hash.length = kMultimodalHashPartCount && decide (0 ≤ position) && decide (0 < length) &&
    decide (position + length ≤ origPromptLen)

variable (req : LlmRequest)

def validMultimodalItems : Option (List (Int × Int)) :=
  match req.multimodal.hashes, req.multimodal.positions, req.multimodal.lengths with
  | some hashes, some positions, some lengths =>
    if hashes ≠ [] ∧ hashes.length = positions.length ∧ positions.length = lengths.length ∧
        (hashes.zip (positions.zip lengths)).all (fun item =>
          validMultimodalItem req.origPromptLen item.1 item.2.1 item.2.2) then
      some (positions.zip lengths)
    else none
  | _, _, _ => none

def blockAlignedEnd (tokensPerBlock : Nat) (item : Int × Int) : Nat :=
  (item.1 + item.2).toNat / tokensPerBlock * tokensPerBlock

def sortUnique (points : List Nat) : List Nat :=
  (points.insertionSort (· ≤ ·)).destutter (· ≠ ·)

def getMultimodalSnapshotBoundaries (tokensPerBlock : Nat) : List Nat :=
  match validMultimodalItems req with
  | none => []
  | some items =>
    if req.multimodal.hasRunMetadata then []
    else sortUnique ((items.map (blockAlignedEnd tokensPerBlock)).filter
      (fun boundary => 0 < boundary && boundary < req.promptLen))

def selectBoundary (items : List (Int × Int)) (promptLen tokensPerBlock interval previous boundary : Nat) : Nat :=
  match items.find? (fun item => decide (item.1 < (boundary : Int)) && decide ((boundary : Int) < item.1 + item.2)) with
  | none => boundary
  | some item =>
    let visualEnd := blockAlignedEnd tokensPerBlock item
    if visualEnd < promptLen ∧ visualEnd ≤ boundary + interval ∧ visualEnd ≤ previous + 2 * interval then visualEnd
    else boundary

def shiftBoundaries (items : List (Int × Int)) (promptLen tokensPerBlock interval : Nat) : Nat → List Nat → List Nat
  | _, [] => []
  | previous, boundary :: rest =>
    if boundary ≤ previous then shiftBoundaries items promptLen tokensPerBlock interval previous rest
    else
      let selected := selectBoundary items promptLen tokensPerBlock interval previous boundary
      selected :: shiftBoundaries items promptLen tokensPerBlock interval selected rest

def periodicBoundaries (promptLen interval : Nat) : List Nat :=
  (List.range ((promptLen - 1) / interval)).map (fun k => (k + 1) * interval)

def snapshotItems (tokensPerBlock : Nat) : List (Int × Int) :=
  if getMultimodalSnapshotBoundaries req tokensPerBlock = [] then []
  else (validMultimodalItems req).getD []

def getRecurrentStateSnapshotBoundaries (tokensPerBlock interval : Nat) : Except BatchError (List Nat) :=
  if 0 < tokensPerBlock ∧ 0 < interval ∧ interval % tokensPerBlock = 0 then
    .ok (sortUnique (shiftBoundaries (snapshotItems req tokensPerBlock) req.promptLen tokensPerBlock interval 0
      (periodicBoundaries req.promptLen interval)))
  else .error (.snapshotLayout tokensPerBlock interval)

variable {items : List (Int × Int)} {promptLen tokensPerBlock interval previous : Nat}

-- A periodic point is a whole number of blocks: an image end beyond it, rounded down, does not fall behind it.
theorem select_boundary_spec {boundary : Nat} (blocks : 0 < tokensPerBlock) (aligned : tokensPerBlock ∣ boundary)
    (inside : boundary < promptLen) (near : boundary ≤ previous + interval) :
    let selected := selectBoundary items promptLen tokensPerBlock interval previous boundary
    boundary ≤ selected ∧ selected < promptLen ∧ selected ≤ previous + 2 * interval ∧ tokensPerBlock ∣ selected := by
  intro selected
  have kept : boundary ≤ boundary ∧ boundary < promptLen ∧ boundary ≤ previous + 2 * interval ∧
      tokensPerBlock ∣ boundary := ⟨le_rfl, inside, by omega, aligned⟩
  simp only [selected, selectBoundary]
  split
  · exact kept
  rename_i item found
  split
  · rename_i shifted
    have covers := find?_some found
    simp only [Bool.and_eq_true, decide_eq_true_eq] at covers
    have beyond : boundary ≤ (item.1 + item.2).toNat := by omega
    obtain ⟨count, rfl⟩ := aligned
    have whole : count ≤ (item.1 + item.2).toNat / tokensPerBlock := (Nat.le_div_iff_mul_le blocks).mpr (by rwa [Nat.mul_comm])
    refine ⟨?_, shifted.1, shifted.2.2, Nat.dvd_mul_left _ _⟩
    rw [blockAlignedEnd, Nat.mul_comm tokensPerBlock]
    exact Nat.mul_le_mul_right _ whole
  · exact kept

structure SpacedPlan (promptLen tokensPerBlock interval previous : Nat) (plan : List Nat) : Prop where
  increasing : (previous :: plan).IsChain (· < ·)
  gaps : (previous :: (plan ++ [promptLen])).IsChain (fun left right => right ≤ left + 2 * interval)
  inside : ∀ boundary ∈ plan, boundary < promptLen ∧ tokensPerBlock ∣ boundary

theorem SpacedPlan.cons {selected : Nat} {plan : List Nat} (after : previous < selected)
    (near : selected ≤ previous + 2 * interval) (within : selected < promptLen ∧ tokensPerBlock ∣ selected)
    (spaced : SpacedPlan promptLen tokensPerBlock interval selected plan) :
    SpacedPlan promptLen tokensPerBlock interval previous (selected :: plan) where
  increasing := isChain_cons_cons.mpr ⟨after, spaced.increasing⟩
  gaps := isChain_cons_cons.mpr ⟨near, spaced.gaps⟩
  inside := forall_mem_cons.mpr ⟨within, spaced.inside⟩

-- `previous` has passed the first `start` periodic points: the next is at most an interval away.
theorem shift_boundaries_spaced (blocks : 0 < tokensPerBlock) (aligned : tokensPerBlock ∣ interval)
    (points start : Nat) (passed : start * interval ≤ previous) (inside : points = 0 ∨ (start + points) * interval < promptLen)
    (covers : promptLen ≤ (start + points + 1) * interval) :
    let plan := shiftBoundaries items promptLen tokensPerBlock interval previous
      ((range' start points).map (fun k => (k + 1) * interval))
    SpacedPlan promptLen tokensPerBlock interval previous plan ∧ plan.length ≤ points := by
  induction points generalizing start previous with
  | zero =>
    have last : promptLen ≤ previous + 2 * interval := by
      rw [Nat.add_zero, Nat.succ_mul] at covers
      omega
    refine ⟨⟨isChain_singleton _, ?_, by simp [shiftBoundaries]⟩, le_rfl⟩
    exact isChain_cons_cons.mpr ⟨last, isChain_singleton _⟩
  | succ points ih =>
    have shift : start + (points + 1) = start + 1 + points := by omega
    rw [shift] at inside covers
    have next : (start + 1) * interval = start * interval + interval := Nat.succ_mul _ _
    have reach : (start + 1) * interval ≤ (start + 1 + points) * interval := Nat.mul_le_mul_right _ (by omega)
    have within : (start + 1 + points) * interval < promptLen := by omega
    rw [range'_succ, map_cons]
    simp only [shiftBoundaries]
    split
    · rename_i skipped
      have rest := ih (start + 1) skipped (.inr within) covers
      exact ⟨rest.1, by omega⟩
    obtain ⟨later, below, near, whole⟩ := @select_boundary_spec items promptLen tokensPerBlock interval previous
      ((start + 1) * interval) blocks (Nat.dvd_mul_left_of_dvd aligned _) (by omega) (by omega)
    have rest := ih (start + 1) later (.inr within) covers
    exact ⟨rest.1.cons (by omega) near ⟨below, whole⟩, by simpa using rest.2⟩

theorem sort_unique_of_increasing {points : List Nat} (increasing : points.Pairwise (· < ·)) : sortUnique points = points := by
  have ordered : points.Pairwise (· ≤ ·) := increasing.imp le_of_lt
  rw [sortUnique, ordered.insertionSort_eq]
  exact destutter_of_isChain _ _ (increasing.imp ne_of_lt).isChain

theorem snapshot_plan_spaced (req : LlmRequest) (blocks : 0 < tokensPerBlock) (positive : 0 < interval)
    (aligned : tokensPerBlock ∣ interval) :
    ∃ plan, getRecurrentStateSnapshotBoundaries req tokensPerBlock interval = .ok plan ∧ plan.Pairwise (· < ·) ∧
      (∀ boundary ∈ plan, 0 < boundary ∧ boundary < req.promptLen ∧ tokensPerBlock ∣ boundary) ∧
      (0 :: (plan ++ [req.promptLen])).IsChain (fun left right => right ≤ left + 2 * interval) ∧
      plan.length ≤ (req.promptLen - 1) / interval := by
  have below : (req.promptLen - 1) / interval * interval ≤ req.promptLen - 1 := Nat.div_mul_le_self _ _
  have above : req.promptLen - 1 < (req.promptLen - 1) / interval * interval + interval := Nat.lt_div_mul_add positive
  have inside : (req.promptLen - 1) / interval = 0 ∨ (0 + (req.promptLen - 1) / interval) * interval < req.promptLen := by
    rcases Nat.eq_zero_or_pos req.promptLen with empty | some
    · exact .inl (by rw [empty, Nat.zero_sub, Nat.zero_div])
    · exact .inr (by rw [Nat.zero_add]; omega)
  obtain ⟨spaced, count⟩ := @shift_boundaries_spaced (snapshotItems req tokensPerBlock) req.promptLen tokensPerBlock
    interval 0 blocks aligned _ 0 (by simp) inside (by rw [Nat.zero_add, Nat.succ_mul]; omega)
  have sorted := isChain_iff_pairwise.mp spaced.increasing
  rw [pairwise_cons] at sorted
  refine ⟨_, ?_, sorted.2, fun boundary mem => ⟨sorted.1 boundary mem, spaced.inside boundary mem⟩, spaced.gaps, count⟩
  rw [getRecurrentStateSnapshotBoundaries, if_pos ⟨blocks, positive, Nat.mod_eq_zero_of_dvd aligned⟩,
    periodicBoundaries, range_eq_range', sort_unique_of_increasing sorted.2]

def oneImageRequest : LlmRequest :=
  { requestId := 0, promptLen := 20,
    multimodal := { hashes := some [replicate 8 0], positions := some [3], lengths := some [5] } }

theorem image_end_swallows_point : getRecurrentStateSnapshotBoundaries oneImageRequest 2 4 = .ok [8, 12, 16] ∧
    [0, 8, 12, 16, 20].IsChain (fun left right => right ≤ left + 2 * 4) ∧ [8, 12, 16].length ≤ 4 := by
  have shifted : getRecurrentStateSnapshotBoundaries oneImageRequest 2 4 = .ok [8, 12, 16] := by decide
  obtain ⟨plan, found, _, _, gaps, count⟩ :=
    snapshot_plan_spaced oneImageRequest (by decide : 0 < 2) (by decide : 0 < 4) (by decide)
  cases shifted.symm.trans found
  exact ⟨shifted, gaps, count⟩

end TrtLlm.Batch
