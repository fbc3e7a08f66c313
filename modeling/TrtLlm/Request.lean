import Mathlib

set_option autoImplicit false

namespace TrtLlm.Batch

inductive LlmRequestState where
  | unknown
  | encoderInit
  | disaggContextWaitScheduler
  | disaggGenerationInit
  | disaggGenerationTransInProgress
  | contextInit
  | disaggContextInitAndTrans
  | disaggGenerationTransComplete
  | generationInProgress
  | generationToComplete
  | generationComplete
  | disaggContextTransInProgress
  | disaggContextComplete
  | disaggGenerationWaitTokens
  | disaggTransError
deriving DecidableEq, Repr

-- hasReachedState compares the enumerators' values as integers.
def LlmRequestState.value : LlmRequestState → Int
  | .unknown => 0
  | .encoderInit => 1
  | .disaggContextWaitScheduler => 7
  | .disaggGenerationInit => 8
  | .disaggGenerationTransInProgress => 9
  | .contextInit => 10
  | .disaggContextInitAndTrans => 11
  | .disaggGenerationTransComplete => 12
  | .generationInProgress => 13
  | .generationToComplete => 14
  | .generationComplete => 20
  | .disaggContextTransInProgress => 21
  | .disaggContextComplete => 22
  | .disaggGenerationWaitTokens => 23
  | .disaggTransError => -1

def kMaxBeamWidthArrayLength : Nat := 8

theorem no_widths : ∀ widths ∈ (none : Option (List Nat)), ∀ width ∈ widths, 0 < width := by simp

-- SamplingConfig checks every beam width to be positive.
structure SamplingConfig where
  beamWidth : Nat := 1
  beamWidthArray : Option (List Nat) := none
  width_pos : 0 < beamWidth := by first | exact Nat.one_pos | decide
  array_pos : ∀ widths ∈ beamWidthArray, ∀ width ∈ widths, 0 < width := by first | exact no_widths | decide
deriving DecidableEq, Repr

-- Any part may be absent or inconsistent; hasRunMetadata: one of the three sparse-layout vectors was given.
structure MultimodalInput where
  hashes : Option (List (List Nat)) := none
  positions : Option (List Int) := none
  lengths : Option (List Int) := none
  hasRunMetadata : Bool := false
deriving DecidableEq, Repr

-- With the cursor of the model it runs (target or draft). Cursor, chunk and estimate keep the bounds that every
-- setter re-establishes.
structure LlmRequest where
  requestId : Nat
  state : LlmRequestState := .contextInit
  promptLen : Nat
  origPromptLen : Nat := promptLen
  numTokens : Nat := promptLen
  contextCurrentPosition : Nat := 0
  contextChunkSize : Nat := 0
  prepopulatedPromptLen : Nat := 0
  estimatedReusableTokens : Nat := 0
  numDraftTokens : Nat := 0
  encoderOutputLen : Option Nat := none
  samplingConfig : SamplingConfig := {}
  decodingIter : Nat := 0
  loraTaskId : Option Nat := none
  multimodal : MultimodalInput := {}
  prompt_le_tokens : promptLen ≤ numTokens := by decide
  position_le_prompt : contextCurrentPosition ≤ promptLen := by decide
  chunk_le_remaining : contextChunkSize ≤ promptLen - contextCurrentPosition := by decide
deriving DecidableEq, Repr

inductive BatchError where
  | noEncoderLength
  | encoderTokensExceedLimit (tokens limit : Nat)
  | contextComputeExceedsLimit (tokens limit : Nat)
  | forcedChunkExceedsLimit (unit limit : Nat)
  | chunkingNotEnabled
  | snapshotIntervalNotPositive
  | snapshotStartBeyondPrompt (start prompt requestId : Nat)
  | snapshotLayout (tokensPerBlock interval : Nat)
  | chunkSizeOutsideContext (requestId : Nat)
  | discardsMissingDraftTokens (requested existing : Int)
  | maxContextBelowSnapshotGap (gap : Nat)
  | forcedChunkBelowSnapshotGap (gap : Nat)
  | diverged
deriving DecidableEq, Repr

namespace LlmRequest
variable (req : LlmRequest)

def hasReachedState (state : LlmRequestState) : Bool :=
  decide (state.value ≤ req.state.value)

def isEncoderInitState : Bool := req.state = .encoderInit

def isContextInitState : Bool :=
  req.state = .contextInit || req.state = .disaggContextInitAndTrans

def isGenerationInProgressState : Bool :=
  req.state = .generationInProgress || req.state = .generationToComplete ||
    req.state = .disaggGenerationTransComplete

def isDisaggGenerationInitState : Bool := req.state = .disaggGenerationInit

def isDisaggGenerationTransmissionComplete : Bool :=
  req.state = .disaggGenerationTransComplete

def getEncoderOutputLen : Except BatchError Nat :=
  match req.encoderOutputLen with
  | some length => .ok length
  | none => .error .noEncoderLength

def getBeamWidthByIter : Nat :=
  match req.samplingConfig.beamWidthArray with
  | none => req.samplingConfig.beamWidth
  | some widths =>
    widths.getD (min req.decodingIter kMaxBeamWidthArrayLength - 1) req.samplingConfig.beamWidth

def getContextRemainingLength : Nat := req.promptLen - req.contextCurrentPosition

def isFirstContextChunk : Bool :=
  req.contextCurrentPosition = req.prepopulatedPromptLen

-- getContextChunkSize refuses a request outside the context and generation-init phases.
def contextChunkReadable : Bool :=
  req.isContextInitState || req.isDisaggGenerationInitState || req.isDisaggGenerationTransmissionComplete

def isLastContextChunk : Bool :=
  req.isDisaggGenerationInitState || req.isDisaggGenerationTransmissionComplete ||
    req.contextCurrentPosition + req.contextChunkSize = req.promptLen

-- Sizes are naturals, so the source's check for a negative one cannot fail; its state check holds for every
-- context request.
def setContextChunkSize (size : Nat) : LlmRequest :=
  { req with
    contextChunkSize := min size req.getContextRemainingLength
    chunk_le_remaining := min_le_right _ _ }

def discardDraftTokens (count : Int) : Except BatchError LlmRequest :=
  if (req.numDraftTokens : Int) < count then
    .error (.discardsMissingDraftTokens count req.numDraftTokens)
  else .ok { req with numDraftTokens := req.numDraftTokens - count.toNat }

def rewind : LlmRequest :=
  { req with
    contextCurrentPosition := 0
    position_le_prompt := Nat.zero_le _
    chunk_le_remaining := le_trans req.chunk_le_remaining (Nat.sub_le_sub_left (Nat.zero_le _) _) }

-- None: the prefix covers the prompt, the chunk rounded to a block is negative, or a chunk that is not the last
-- does not end at a block.
def setPrepopulatedPromptLen (prepopulated kvTokensPerBlock : Nat) : Option LlmRequest :=
  if prompt : prepopulated < req.promptLen then
    if prepopulated = 0 then some { req with prepopulatedPromptLen := 0 }
    else
      let ends := prepopulated + req.contextChunkSize
      let stop := if ends < req.promptLen then ends / kvTokensPerBlock * kvTokensPerBlock else ends
      let moved := { req with
        prepopulatedPromptLen := prepopulated
        contextCurrentPosition := prepopulated
        contextChunkSize := min (stop - prepopulated) (req.promptLen - prepopulated)
        position_le_prompt := le_of_lt prompt
        chunk_le_remaining := min_le_right _ _ }
      if prepopulated ≤ stop ∧ (moved.isLastContextChunk ∨
          (prepopulated + moved.contextChunkSize) % kvTokensPerBlock = 0) then some moved
      else none
  else none

include req

theorem beam_width_pos : 0 < req.getBeamWidthByIter := by
  unfold getBeamWidthByIter
  cases given : req.samplingConfig.beamWidthArray with
  | none => exact req.samplingConfig.width_pos
  | some widths =>
    simp only [List.getD_eq_getElem?_getD]
    cases found : widths[min req.decodingIter kMaxBeamWidthArrayLength - 1]? with
    | none => exact req.samplingConfig.width_pos
    | some width =>
      exact req.samplingConfig.array_pos widths given width (List.mem_of_getElem? found)

@[simp] theorem set_chunk_size (size : Nat) :
    (req.setContextChunkSize size).contextChunkSize = min size req.getContextRemainingLength := rfl

@[simp] theorem set_chunk_remaining (size : Nat) :
    (req.setContextChunkSize size).getContextRemainingLength = req.getContextRemainingLength := rfl

@[simp] theorem set_chunk_set_chunk (first second : Nat) :
    (req.setContextChunkSize first).setContextChunkSize second = req.setContextChunkSize second := rfl

theorem set_own_chunk : req.setContextChunkSize req.contextChunkSize = req := by
  have fits : min req.contextChunkSize req.getContextRemainingLength = req.contextChunkSize := min_eq_left req.chunk_le_remaining
  simp only [setContextChunkSize, fits]

theorem prepopulated_keeps {result : LlmRequest} {prepopulated kvTokensPerBlock : Nat}
    (done : req.setPrepopulatedPromptLen prepopulated kvTokensPerBlock = some result) :
    result.requestId = req.requestId ∧ result.state = req.state ∧ result.numDraftTokens = req.numDraftTokens := by
  unfold setPrepopulatedPromptLen at done
  split at done
  · split at done
    · cases done
      exact ⟨rfl, rfl, rfl⟩
    · obtain ⟨_, same⟩ := Option.ite_none_right_eq_some.mp done
      rw [← Option.some.inj same]
      exact ⟨rfl, rfl, rfl⟩
  · cases done

end LlmRequest
end TrtLlm.Batch
