import Mathlib

set_option autoImplicit false

namespace TrtLlm.Kv.AttentionWindow

def kSWAExtraBlock : Int := 1

def ceilDiv (numerator denominator : Int) : Int := (numerator + denominator - 1) / denominator

def getSinkBubbleLength (sinkTokenLen tokensPerBlock : Int) : Int :=
  let sinkTokensInLastBlock := sinkTokenLen % tokensPerBlock
  if sinkTokensInLastBlock = 0 then 0 else tokensPerBlock - sinkTokensInLastBlock

def calculateMaxBlockRequirementsPerBeam (sequenceLength sinkTokenLength windowSize tokensPerBlock : Int) : Int :=
  let actualSeqLen := min sequenceLength windowSize
  let actualMaxTokenNum := actualSeqLen + getSinkBubbleLength sinkTokenLength tokensPerBlock
  let numBlocks := ceilDiv actualMaxTokenNum tokensPerBlock
  if sequenceLength > windowSize then numBlocks + kSWAExtraBlock else numBlocks

def calculateMaxBlockRequirements (inputLength outputLength sinkTokenLength windowSize beamWidth tokensPerBlock : Int) : Int :=
  let wholeSequenceLength := inputLength + outputLength
  if beamWidth = 1 then
    calculateMaxBlockRequirementsPerBeam wholeSequenceLength sinkTokenLength windowSize tokensPerBlock
  else if windowSize ≤ outputLength then
    calculateMaxBlockRequirementsPerBeam outputLength sinkTokenLength windowSize tokensPerBlock * beamWidth
  else
    let effectiveAttentionWindow := min windowSize wholeSequenceLength
    let numContextTokensInAttentionWindow := effectiveAttentionWindow - outputLength
    let sinkBubbleLength := getSinkBubbleLength sinkTokenLength tokensPerBlock
    let numContextBlocks := (numContextTokensInAttentionWindow + sinkBubbleLength) / tokensPerBlock
    -- Negative where the bubble fills the last context block.
    let leftoverContextToken := numContextTokensInAttentionWindow - numContextBlocks * tokensPerBlock
    let numOutputBlocks := ceilDiv (outputLength + leftoverContextToken) tokensPerBlock
    numContextBlocks +
      (if wholeSequenceLength > windowSize then numOutputBlocks + kSWAExtraBlock else numOutputBlocks) * beamWidth

def calculateMaxAttentionWindow (inputLength outputLength sinkTokenLength blockCapacity beamWidth tokensPerBlock : Int) : Int :=
  let outputBlockRequirements :=
    calculateMaxBlockRequirements 0 outputLength sinkTokenLength outputLength beamWidth tokensPerBlock
  if outputBlockRequirements > blockCapacity then blockCapacity / beamWidth * tokensPerBlock
  else
    let leftoverBlockCapacity := blockCapacity - outputBlockRequirements
    min (outputLength + leftoverBlockCapacity * tokensPerBlock) (inputLength + outputLength)

variable {input out sink window cap beams size : Int} (pos : 0 < size)
include pos

theorem bubble_bounds : 0 ≤ getSinkBubbleLength sink size ∧ getSinkBubbleLength sink size < size := by
  have low := Int.emod_nonneg sink pos.ne'
  have high := Int.emod_lt_of_pos sink pos
  unfold getSinkBubbleLength
  dsimp only
  split <;> omega

theorem ceil_le_iff {length count : Int} : ceilDiv length size ≤ count ↔ length ≤ count * size := by
  rw [ceilDiv, ← Int.lt_add_one_iff, Int.ediv_lt_iff_lt_mul pos, add_mul]
  omega

theorem ceil_add_blocks (length count : Int) : ceilDiv (length + count * size) size = ceilDiv length size + count := by
  rw [ceilDiv, ceilDiv, ← Int.add_mul_ediv_right _ _ pos.ne']
  congr 1
  omega

-- A window that slides needs one block more than its tokens fill.
theorem sliding_requirements (sliding : window < input + out) :
    calculateMaxBlockRequirements input out sink window beams size =
      let bubble := getSinkBubbleLength sink size
      let context := (window - out + bubble) / size
      if beams = 1 then ceilDiv (window + bubble) size + 1
      else if window ≤ out then (ceilDiv (window + bubble) size + if window < out then 1 else 0) * beams
      else context + (ceilDiv window size + 1 - context) * beams := by
  have outputs (blocks : Int) : ceilDiv (out + (window - out - blocks * size)) size = ceilDiv window size + -blocks := by
    convert ceil_add_blocks pos window (-blocks) using 2
    ring
  simp only [calculateMaxBlockRequirements, calculateMaxBlockRequirementsPerBeam, kSWAExtraBlock, gt_iff_lt, sliding, if_true,
    min_eq_left sliding.le, min_eq_right sliding.le, outputs]
  split_ifs with _ inside
  · rfl
  · rw [min_eq_right inside]
  · rw [min_eq_right inside, add_zero]
  · ring

omit pos in
theorem max_attention_window : calculateMaxAttentionWindow input out sink cap beams size =
    let blocks := ceilDiv (out + getSinkBubbleLength sink size) size
    if blocks * beams > cap then cap / beams * size else min (out + (cap - blocks * beams) * size) (input + out) := by
  have alone : calculateMaxBlockRequirements 0 out sink out beams size =
      ceilDiv (out + getSinkBubbleLength sink size) size * beams := by
    by_cases single : beams = 1 <;> simp [calculateMaxBlockRequirements, calculateMaxBlockRequirementsPerBeam, single]
  simp only [calculateMaxAttentionWindow, alone]

-- With one beam the window takes the whole capacity, and the extra block does not fit.
theorem single_beam_exceeds {bubble blocks : Int} (low : 0 ≤ bubble) (last : ∀ count, blocks ≤ count ↔ out + bubble ≤ count * size)
    (window_is : window = if blocks > cap then cap * size else out + (cap - blocks) * size) :
    ¬ceilDiv (window + bubble) size + 1 ≤ cap := by
  intro fits
  have few := (ceil_le_iff pos).mp (le_sub_iff_add_le.mpr fits)
  have full := (last (blocks - 1)).not.mp (by omega)
  rw [sub_mul] at few full
  split at window_is
  · omega
  · rw [sub_mul] at window_is
    omega

theorem large_output_fits_iff {bubble blocks : Int} (present : 0 < beams) (enough : 2 * beams ≤ cap)
    (bounds : 0 ≤ bubble ∧ bubble < size) (last : ∀ count, blocks ≤ count ↔ out + bubble ≤ count * size)
    (large : blocks * beams > cap) (window_is : window = cap / beams * size) :
    (0 < window ∧ (let context := (window - out + bubble) / size
      if window ≤ out then (ceilDiv (window + bubble) size + if window < out then 1 else 0) * beams
      else context + (ceilDiv window size + 1 - context) * beams) ≤ cap) ↔
    out < window ∧ size ≤ window - out + bubble ∧ cap % beams ≠ 0 := by
  have parts := Int.mul_ediv_add_emod cap beams
  have low := Int.emod_nonneg cap present.ne'
  have high := Int.emod_lt_of_pos cap present
  generalize cap / beams = count at *
  generalize cap % beams = rest at *
  have some_count : 0 < count := by nlinarith
  have missing := (last count).not.mp fun within => by nlinarith
  by_cases inside : window ≤ out
  · -- Every beam needs blocks of its own, and the extra one does not fit.
    refine iff_of_false (fun fits => ?_) fun fits => fits.1.not_ge inside
    have blocks_fit := fits.2
    rw [if_pos inside] at blocks_fit
    have few : ceilDiv (window + bubble) size + (if window < out then 1 else 0) ≤ count := by nlinarith
    split at few
    · rw [← le_sub_iff_add_le, ceil_le_iff pos, sub_mul] at few
      omega
    · rw [add_zero, ceil_le_iff pos] at few
      omega
  · have filled : ceilDiv window size = count := by
      rw [window_is, ← zero_add (count * size), ceil_add_blocks pos, ceilDiv, Int.ediv_eq_zero_of_lt] <;> omega
    rw [if_neg inside, filled]
    have positive : 0 < window := window_is ▸ mul_pos some_count pos
    have one := Int.le_ediv_iff_mul_le (a := 1) (b := window - out + bubble) pos
    have below := (Int.ediv_lt_iff_lt_mul (b := 2) (a := window - out + bubble) pos).mpr (by omega)
    have above := Int.ediv_nonneg (a := window - out + bubble) (by omega) pos.le
    generalize (window - out + bubble) / size = context at *
    obtain rfl | rfl : context = 0 ∨ context = 1 := by omega
    · exact iff_of_false (fun fits => by nlinarith [fits.2]) (by omega)
    · rw [add_sub_cancel_right, mul_comm]
      omega

theorem small_output_fits_iff {bubble blocks : Int} (sound : 0 ≤ out) (present : 0 < beams) (enough : 2 * beams ≤ cap)
    (bounds : 0 ≤ bubble ∧ bubble < size) (last : ∀ count, blocks ≤ count ↔ out + bubble ≤ count * size)
    (small : blocks * beams ≤ cap) (window_is : window = out + (cap - blocks * beams) * size) :
    (0 < window ∧ (let context := (window - out + bubble) / size
      if window ≤ out then (ceilDiv (window + bubble) size + if window < out then 1 else 0) * beams
      else context + (ceilDiv window size + 1 - context) * beams) ≤ cap) ↔
    cap = blocks * beams ∨ ceilDiv out size < blocks := by
  obtain ⟨spare, spare_is⟩ : ∃ spare, cap - blocks * beams = spare := ⟨_, rfl⟩
  rw [spare_is] at window_is
  obtain none_spare | some_spare : spare = 0 ∨ 0 < spare := by omega
  · have two : 2 ≤ blocks := by nlinarith
    have same : window = out := by rw [window_is, none_spare, zero_mul, add_zero]
    have exact_blocks : ceilDiv (out + bubble) size ≤ blocks := (ceil_le_iff pos).mpr ((last blocks).mp le_rfl)
    rw [same, if_pos le_rfl, if_neg (lt_irrefl _), add_zero]
    exact iff_of_true ⟨by nlinarith [(last 1).not.mp (by omega)], by nlinarith⟩ (.inl (by omega))
  · have room : 0 < spare * size := mul_pos some_spare pos
    have context : (window - out + bubble) / size = spare := by
      rw [window_is, add_sub_cancel_left, add_comm, Int.add_mul_ediv_right _ _ pos.ne',
        Int.ediv_eq_zero_of_lt bounds.1 bounds.2, zero_add]
    rw [if_neg (by omega), context, window_is, ceil_add_blocks pos]
    have scaled : (ceilDiv out size + 1) * beams ≤ blocks * beams ↔ _ := mul_le_mul_iff_left₀ present
    rw [add_sub_right_comm, add_sub_cancel_right]
    omega

theorem reduced_window_fits_iff (sound : 0 ≤ out) (present : 0 < beams) (enough : 2 * beams ≤ cap)
    (exceeds : calculateMaxBlockRequirements input out sink (input + out) beams size > cap) :
    let bubble := getSinkBubbleLength sink size
    let blocks := ceilDiv (out + bubble) size
    let window := calculateMaxAttentionWindow input out sink cap beams size
    (0 < window ∧ window ≤ input + out ∧
      calculateMaxBlockRequirements input out sink window beams size ≤ cap) ↔
    beams ≠ 1 ∧ if blocks * beams > cap
      then out < cap / beams * size ∧ cap / beams * size < input + out ∧ size ≤ cap / beams * size - out + bubble ∧
        cap % beams ≠ 0
      else (cap - blocks * beams) * size < input ∧ (cap = blocks * beams ∨ ceilDiv out size < blocks) := by
  intro bubble blocks window
  have bounds : 0 ≤ bubble ∧ bubble < size := bubble_bounds pos
  have last : ∀ count, blocks ≤ count ↔ out + bubble ≤ count * size := fun count => ceil_le_iff pos
  have window_is : window = if blocks * beams > cap then cap / beams * size
      else min (out + (cap - blocks * beams) * size) (input + out) := max_attention_window
  clear_value window
  -- The whole sequence does not fit, so the window slides.
  obtain sliding | whole := lt_or_ge window (input + out)
  swap
  · refine iff_of_false (fun fits => ?_) fun fits => ?_
    · rw [fits.2.1.antisymm whole] at fits
      exact exceeds.not_ge fits.2.2
    · have := fits.2
      split at window_is <;> split at this <;> omega
  rw [show calculateMaxBlockRequirements input out sink window beams size = _ from sliding_requirements pos sliding]
  simp only [sliding.le, true_and]
  by_cases single : beams = 1
  · subst single
    refine iff_of_false (fun fits => ?_) fun fits => fits.1 rfl
    refine single_beam_exceeds pos bounds.1 last ?_ fits.2
    simp only [mul_one, Int.ediv_one] at window_is
    split <;> rename_i large
    · rwa [if_pos large] at window_is
    · rw [if_neg large] at window_is
      omega
  rw [if_neg single, and_iff_right single]
  split at window_is
  case isTrue large =>
    rw [if_pos large, ← window_is, large_output_fits_iff pos present enough bounds last large window_is]
    exact and_congr_right fun _ => (and_iff_right sliding).symm
  case isFalse small =>
    have slides : window = out + (cap - blocks * beams) * size := by omega
    rw [if_neg small, small_output_fits_iff pos sound present enough bounds last (not_lt.mp small) slides]
    exact (and_iff_right (by omega)).symm

omit pos

theorem bubble_block_fits : 0 < calculateMaxAttentionWindow 64 8 1 7 2 4 ∧ calculateMaxAttentionWindow 64 8 1 7 2 4 ≤ 72 ∧
    calculateMaxBlockRequirements 64 8 1 (calculateMaxAttentionWindow 64 8 1 7 2 4) 2 4 ≤ 7 :=
  (reduced_window_fits_iff (by decide) (by decide) (by decide) (by decide) (by decide)).mpr (by decide)

-- The capacity of the test for an output too large: a block for each of the four beams is missing.
theorem tested_window_exceeds : calculateMaxBlockRequirements 1024 255 0 (1024 + 255) 4 64 > 12 ∧
    calculateMaxAttentionWindow 1024 255 0 12 4 64 = 192 ∧ calculateMaxBlockRequirements 1024 255 0 192 4 64 = 16 := by
  decide

end TrtLlm.Kv.AttentionWindow
