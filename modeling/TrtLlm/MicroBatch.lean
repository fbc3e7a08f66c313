import TrtLlm.ChunkPolicy

set_option autoImplicit false

namespace TrtLlm.Batch

structure MicroBatchScheduler where
  maxContextLength : Option Nat := none
  ctxChunkConfig : Option ContextChunkingConfig := none
  noScheduleUntilState : LlmRequestState := .contextInit
  noScheduleAfterState : LlmRequestState := .generationToComplete
deriving DecidableEq, Repr

-- The constructor refuses visual snapshots whose chunks could not span the widest gap between two shifted ones.
def MicroBatchScheduler.create (ctxChunkConfig : Option ContextChunkingConfig) (maxContextLength : Option Nat)
    (noScheduleUntilState noScheduleAfterState : LlmRequestState) : Except BatchError MicroBatchScheduler :=
  let sched : MicroBatchScheduler :=
    { maxContextLength, ctxChunkConfig, noScheduleUntilState, noScheduleAfterState }
  match ctxChunkConfig with
  | none => .ok sched
  | some config =>
    match config.stateSnapshotInterval with
    | none => .ok sched
    | some interval =>
      if config.visualSnapshotTokensPerBlock = 0 then .ok sched
      else if maxContextLength.any (· < 2 * interval) then .error (.maxContextBelowSnapshotGap (2 * interval))
      else if config.chunkingPolicy = .forceChunk ∧ config.chunkUnitSize < 2 * interval then
        .error (.forcedChunkBelowSnapshotGap (2 * interval))
      else .ok sched

structure Selection where
  contextRequests : List LlmRequest := []
  generationRequests : List LlmRequest := []
  batchNumTokens : Nat := 0
  scheduledReqSize : Nat := 0
  scheduledBeamWidth : Nat := 0
  contextsToBeChunked : List LlmRequest := []
  numChunkedComputeTokens : Nat := 0
  allContextRequestsFit : Bool := true
deriving DecidableEq, Repr

inductive Flow where
  | next (selection : Selection)
  | stop (selection : Selection)
deriving DecidableEq, Repr

def Flow.selection : Flow → Selection
  | .next s => s
  | .stop s => s

def LlmRequest.reusable (req : LlmRequest) : Nat :=
  if req.isFirstContextChunk then req.estimatedReusableTokens else 0

def LlmRequest.contextCompute (req : LlmRequest) (tokens : Nat) : Nat :=
  reuseAdjustedCompute tokens req.reusable req.getContextRemainingLength

namespace MicroBatchScheduler
variable (sched : MicroBatchScheduler) (inflight : List Nat) (maxBatchSize : Nat) (maxNumTokens : Option Nat)

def schedulable (req : LlmRequest) : Bool :=
  req.hasReachedState sched.noScheduleUntilState && !req.hasReachedState sched.noScheduleAfterState

variable (s : Selection)

def countScheduled : Flow :=
  let counted := { s with scheduledReqSize := s.scheduledReqSize + 1 }
  if maxBatchSize ≤ counted.scheduledReqSize then .stop counted else .next counted

def selectEncoder (req : LlmRequest) : Except BatchError Flow := do
  let tokens ← req.getEncoderOutputLen
  if exceeds sched.maxContextLength tokens then
    throw (.encoderTokensExceedLimit tokens (sched.maxContextLength.getD 0))
  if exceeds maxNumTokens (s.batchNumTokens + tokens) then return .stop s
  return countScheduled maxBatchSize
    { s with
      contextRequests := s.contextRequests ++ [req]
      batchNumTokens := s.batchNumTokens + tokens }

def selectWholeContext (req : LlmRequest) : Except BatchError Flow := do
  let computeTokens := max 1 (req.contextCompute req.numTokens + req.numDraftTokens)
  if exceeds sched.maxContextLength computeTokens then
    throw (.contextComputeExceedsLimit computeTokens (sched.maxContextLength.getD 0))
  if exceeds maxNumTokens (s.batchNumTokens + computeTokens) then return .stop s
  return countScheduled maxBatchSize
    { s with
      contextRequests := s.contextRequests ++ [req]
      batchNumTokens := s.batchNumTokens + computeTokens }

def selectChunkedContext (req : LlmRequest) : Flow :=
  let whole := req.setContextChunkSize req.getContextRemainingLength
  let draftTokens := if whole.isLastContextChunk then whole.numDraftTokens else 0
  let computeTokens := whole.contextCompute whole.contextChunkSize + draftTokens
  let tooLong := exceeds sched.maxContextLength computeTokens
  countScheduled maxBatchSize
    { s with
      contextsToBeChunked := s.contextsToBeChunked ++ [whole]
      numChunkedComputeTokens :=
        s.numChunkedComputeTokens + (if tooLong then sched.maxContextLength.getD 0 else computeTokens)
      allContextRequestsFit := s.allContextRequestsFit && !tooLong }

def selectGeneration (req : LlmRequest) : Flow :=
  let beamWidth := req.getBeamWidthByIter
  let tokens := beamWidth + req.numDraftTokens
  if exceeds maxNumTokens (s.batchNumTokens + tokens) then .stop s
  else if s.scheduledBeamWidth = 0 ∨ s.scheduledBeamWidth = beamWidth then
    countScheduled maxBatchSize
      { s with
        scheduledBeamWidth := beamWidth
        generationRequests := s.generationRequests ++ [req]
        batchNumTokens := s.batchNumTokens + tokens }
  else .next s

def selectRequest (req : LlmRequest) : Except BatchError Flow :=
  if !sched.schedulable req then .ok (.next s)
  else if req.requestId ∈ inflight then .ok (.next s)
  else if req.isEncoderInitState then sched.selectEncoder maxBatchSize maxNumTokens s req
  else if req.isContextInitState then
    if sched.ctxChunkConfig.isNone then sched.selectWholeContext maxBatchSize maxNumTokens s req
    else .ok (sched.selectChunkedContext maxBatchSize s req)
  else .ok (selectGeneration maxBatchSize maxNumTokens s req)

def selectRequests : Selection → List LlmRequest → Except BatchError Selection
  | s, [] => .ok s
  | s, req :: rest =>
    match sched.selectRequest inflight maxBatchSize maxNumTokens s req with
    | .error e => .error e
    | .ok (.stop s') => .ok s'
    | .ok (.next s') => selectRequests s' rest

def forcesChunks : Bool :=
  sched.ctxChunkConfig.any fun config => config.chunkingPolicy = .forceChunk

def allFit : Bool :=
  s.allContextRequestsFit && !exceeds (maxNumTokens.map (· - s.batchNumTokens)) s.numChunkedComputeTokens &&
    !sched.forcesChunks

def sizeContexts : Except BatchError (List LlmRequest) :=
  match sched.ctxChunkConfig with
  | none => if sched.allFit maxNumTokens s then .ok s.contextsToBeChunked else .error .chunkingNotEnabled
  | some config =>
    if sched.allFit maxNumTokens s then
      if config.stateSnapshotInterval.isSome then do
        let aligned ← alignIfSnapshots config s.contextsToBeChunked
        fitDraftTokens none config.chunkUnitSize sched.maxContextLength aligned
      else .ok s.contextsToBeChunked
    else
      setCtxRequestsChunkSize config (maxNumTokens.map (· - s.batchNumTokens)) sched.maxContextLength
        s.contextsToBeChunked

end MicroBatchScheduler

def loraOrder (req : LlmRequest) : Nat :=
  match req.loraTaskId with
  | none => 0
  | some task => task + 1

def sortByLoraId (reqs : List LlmRequest) : List LlmRequest :=
  reqs.insertionSort fun left right => loraOrder left ≤ loraOrder right

-- The source leaves the order of equal task ids open; the stable one stands for it.
def sortRequests (contextRequests generationRequests : List LlmRequest) (chunksPresent : Bool) :
    Except BatchError (List LlmRequest × List LlmRequest) :=
  if chunksPresent then
    match contextRequests.find? (fun req => !req.contextChunkReadable) with
    | some req => .error (.chunkSizeOutsideContext req.requestId)
    | none => .ok (sortByLoraId (contextRequests.filter (fun req => !req.isLastContextChunk)) ++
        sortByLoraId (contextRequests.filter (·.isLastContextChunk)), sortByLoraId generationRequests)
  else .ok (sortByLoraId contextRequests, sortByLoraId generationRequests)

def MicroBatchScheduler.schedule (sched : MicroBatchScheduler) (activeRequests : List LlmRequest)
    (inflight : List Nat) (maxBatchSize : Nat) (maxNumTokens : Option Nat) :
    Except BatchError (List LlmRequest × List LlmRequest) := do
  let s ← sched.selectRequests inflight maxBatchSize maxNumTokens {} activeRequests
  let chunked ← sched.sizeContexts maxNumTokens s
  sortRequests (s.contextRequests ++ chunked.filter (0 < ·.contextChunkSize)) s.generationRequests
    (!sched.allFit maxNumTokens s)

end TrtLlm.Batch
