import Mathlib

set_option autoImplicit false

namespace TrtLlm.KvTransfer
open List

-- A beam-width-1 request and one of its layer groups.
structure Layout where
  promptLen : Nat
  tokensPerBlock : Nat
  positive : 0 < tokensPerBlock
  numExtraKvTokens : Nat
  windowSize : Option Nat

namespace Layout
variable (layout : Layout) {Src Dst Block : Type}

def blocks (tokens : Nat) : Nat := (tokens + layout.tokensPerBlock - 1) / layout.tokensPerBlock

-- Without a window nothing is stale.
def staleEnd : Nat :=
  match layout.windowSize with
  | none => 0
  | some windowSize => (layout.promptLen + 1 - windowSize) / layout.tokensPerBlock

-- token_range is None for an empty prompt.
def sliceEnd : Nat := if 0 < layout.promptLen then layout.promptLen + layout.numExtraKvTokens else 0

def trimBlockIds (expectedValid cacheSkip : Nat) (blockIds : List Block) : List Block :=
  if expectedValid = 0 then []
  else
    let kept := if expectedValid < blockIds.length then blockIds.drop (blockIds.length - expectedValid) else blockIds
    if 0 < cacheSkip then if cacheSkip < kept.length then kept.drop cacheSkip else [] else kept

def createKvSlice (cachedTokens : Nat) (blockIds : List Block) : List Block :=
  let totalBlocks := layout.blocks layout.promptLen
  trimBlockIds (totalBlocks - layout.staleEnd) (cachedTokens / layout.tokensPerBlock - layout.staleEnd)
    (if totalBlocks < blockIds.length then blockIds.take totalBlocks else blockIds)

def alignKvBlocks (src : List Src) (dst : List Dst) (srcStart dstStart : Nat) : List (Src × Dst) :=
  let overlapStart := max srcStart dstStart
  let srcSkip := (overlapStart - srcStart) / layout.tokensPerBlock
  let dstSkip := (overlapStart - dstStart) / layout.tokensPerBlock
  let transfer := min (src.length - srcSkip) (dst.length - dstSkip)
  ((src.drop srcSkip).take transfer).zip ((dst.drop dstSkip).take transfer)

-- The lists of both sides; none where the call raises.
def buildKvWriteMeta (src : List Src) (dst : List Dst) : Option (List (Src × Dst)) :=
  if src.length + 1 < dst.length then none
  else
    let dst := if dst.length = src.length + 1 then dst.dropLast else dst
    let totalBlocks := layout.blocks layout.sliceEnd
    if totalBlocks < src.length ∨ totalBlocks < dst.length then none
    else
      let start (size : Nat) := max (layout.staleEnd * layout.tokensPerBlock) ((totalBlocks - size) * layout.tokensPerBlock)
      some (layout.alignKvBlocks src dst (start src.length) (start dst.length))

-- The blocks by position, as a manager returns them.
def managed (first : Nat) : List Nat := range' first (layout.blocks (layout.promptLen + layout.numExtraKvTokens) - first)

def write (cachedBlocks srcFirst dstFirst : Nat) : Option (List (Nat × Nat)) :=
  layout.buildKvWriteMeta (layout.createKvSlice 0 (layout.managed srcFirst))
    (layout.createKvSlice (cachedBlocks * layout.tokensPerBlock) (layout.managed dstFirst))

-- How far a slice ends behind the last block of the prompt.
def shift (first : Nat) : Nat :=
  let extended := layout.blocks (layout.promptLen + layout.numExtraKvTokens)
  if layout.blocks layout.promptLen < extended - first then first else extended - layout.blocks layout.promptLen

theorem blocks_mono {few many : Nat} (le : few ≤ many) : layout.blocks few ≤ layout.blocks many :=
  Nat.div_le_div_right (by omega)

theorem take_range (start : Nat) {few many : Nat} (le : few ≤ many) : (range' start many).take few = range' start few := by
  rw [← Nat.add_sub_cancel' le, ← range'_append_1, take_left' length_range']

theorem range_congr {left right few many : Nat} (count : few = many) (start : few = 0 ∨ left = right) :
    range' left few = range' right many := by
  subst count
  rcases start with rfl | rfl <;> rfl

theorem trim_range (start skip : Nat) {count valid : Nat} (fits : valid ≤ count) :
    trimBlockIds valid skip (range' start count) = range' (start + (count - valid) + skip) (valid - skip) := by
  rw [trimBlockIds, length_range']
  split
  · rw [show valid - skip = 0 by omega, range'_zero]
  have kept : (if valid < count then (range' start count).drop (count - valid) else range' start count) =
      range' (start + (count - valid)) valid := by
    split
    · rw [drop_range', Nat.mul_one, Nat.sub_sub_self fits]
    · rw [show count = valid by omega, Nat.sub_self, Nat.add_zero]
  rw [kept]
  dsimp only
  rw [length_range', drop_range', Nat.mul_one]
  split_ifs
  · rfl
  · rw [show valid - skip = 0 by omega, range'_zero]
  · rw [show skip = 0 by omega, Nat.add_zero, Nat.sub_zero]

theorem slice_positions (cachedBlocks : Nat) {first : Nat} (early : first ≤ layout.staleEnd) :
    layout.createKvSlice (cachedBlocks * layout.tokensPerBlock) (layout.managed first) =
      range' (layout.shift first + max layout.staleEnd cachedBlocks)
        (layout.blocks layout.promptLen - max layout.staleEnd cachedBlocks) := by
  have more := layout.blocks_mono (Nat.le_add_right layout.promptLen layout.numExtraKvTokens)
  rw [createKvSlice, Nat.mul_div_cancel _ layout.positive, managed, shift, length_range']
  generalize layout.blocks (layout.promptLen + layout.numExtraKvTokens) = extended at *
  generalize layout.blocks layout.promptLen = total at *
  split
  · rw [take_range first (by omega), trim_range _ _ (by omega)]
    exact range_congr (by omega) (by omega)
  · rw [trim_range _ _ (by omega)]
    exact range_congr (by omega) (by omega)

theorem align_blocks (src : List Src) (dst : List Dst) {srcStart dstStart : Nat} (later : srcStart ≤ dstStart)
    (matched : src.length - (dstStart - srcStart) = dst.length) :
    layout.alignKvBlocks src dst (srcStart * layout.tokensPerBlock) (dstStart * layout.tokensPerBlock) =
      (src.drop (dstStart - srcStart)).zip dst := by
  have overlap := Nat.max_eq_right (Nat.mul_le_mul_right layout.tokensPerBlock later)
  rw [alignKvBlocks, overlap, ← Nat.sub_mul, Nat.mul_div_cancel _ layout.positive, Nat.sub_self, Nat.zero_div, matched, Nat.sub_zero,
    Nat.min_self, drop_zero, take_length, take_of_length_le (Nat.le_of_eq (by rw [length_drop, matched]))]

theorem write_positions (cachedBlocks : Nat) {srcFirst dstFirst : Nat} (srcEarly : srcFirst ≤ layout.staleEnd)
    (dstEarly : dstFirst ≤ layout.staleEnd) : layout.write cachedBlocks srcFirst dstFirst =
      some ((range' (max layout.staleEnd cachedBlocks) (layout.blocks layout.promptLen - max layout.staleEnd cachedBlocks)).map
        fun idx => (layout.shift srcFirst + idx, layout.shift dstFirst + idx)) := by
  have src := layout.slice_positions 0 srcEarly
  rw [Nat.zero_mul, Nat.max_zero] at src
  have total : layout.blocks layout.promptLen ≤ layout.blocks layout.sliceEnd := by
    apply blocks_mono
    rw [sliceEnd]
    split <;> omega
  rw [write, src, layout.slice_positions cachedBlocks dstEarly, buildKvWriteMeta]
  generalize layout.blocks layout.promptLen = prompt at *
  generalize layout.blocks layout.sliceEnd = total at *
  generalize layout.staleEnd = stale at *
  have fewer : ¬prompt - max stale cachedBlocks = prompt - stale + 1 := by omega
  simp only [length_range', if_neg fewer, Nat.mul_max_mul_right]
  rw [if_neg (by omega), if_neg (by omega), layout.align_blocks _ _ (by omega) (by simp only [length_range']; omega), drop_range',
    range_congr (show _ = prompt - max stale cachedBlocks by omega)
      (show _ ∨ _ = layout.shift srcFirst + max stale cachedBlocks by omega), ← map_add_range', ← map_add_range', zip_map']

-- Each block is written to its own position, from the first one neither stale nor cached on.
def Paired (cachedBlocks srcFirst dstFirst : Nat) : Prop :=
  layout.write cachedBlocks srcFirst dstFirst = some ((range' (max layout.staleEnd cachedBlocks)
    (layout.blocks layout.promptLen - max layout.staleEnd cachedBlocks)).map fun position => (position, position))

theorem paired_iff (layout : Layout) (cachedBlocks : Nat) (srcFirst dstFirst : Fin (layout.staleEnd + 1)) :
    layout.Paired cachedBlocks srcFirst dstFirst ↔ layout.blocks layout.promptLen ≤ max layout.staleEnd cachedBlocks ∨
      layout.blocks (layout.promptLen + layout.numExtraKvTokens) = layout.blocks layout.promptLen ∨
      srcFirst.val = 0 ∧ dstFirst.val = 0 := by
  have more := layout.blocks_mono (Nat.le_add_right layout.promptLen layout.numExtraKvTokens)
  rw [Paired, layout.write_positions cachedBlocks (Nat.le_of_lt_succ srcFirst.2) (Nat.le_of_lt_succ dstFirst.2), Option.some.injEq,
    map_inj_left, shift, shift]
  generalize layout.blocks (layout.promptLen + layout.numExtraKvTokens) = extended at *
  generalize layout.blocks layout.promptLen = total at *
  constructor
  · intro same
    by_cases empty : total ≤ max layout.staleEnd cachedBlocks
    · exact .inl empty
    obtain ⟨src, dst⟩ := Prod.mk.inj (same (max layout.staleEnd cachedBlocks) (mem_range'_1.mpr ⟨Nat.le_refl _, by omega⟩))
    split_ifs at src dst <;> omega
  · intro right idx mem
    have inside := mem_range'_1.mp mem
    apply Prod.ext
    · dsimp only
      split_ifs <;> omega
    · dsimp only
      split_ifs <;> omega

end Layout

-- Two blocks with one extra token, the first out of the window. The block behind the prompt is sent in place of
-- the second, and lands in the second if the receiver still lists its first.
def eightTokens : Layout := ⟨8, 4, by decide, 1, some 4⟩

theorem extra_block_sent : ¬eightTokens.Paired 0 1 1 ∧ eightTokens.write 0 1 1 = some [(2, 2)] ∧
    eightTokens.write 0 1 0 = some [(2, 1)] := by
  unfold Layout.Paired
  decide

end TrtLlm.KvTransfer
