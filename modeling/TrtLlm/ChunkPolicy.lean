import TrtLlm.SnapshotBoundaries

set_option autoImplicit false

namespace TrtLlm.Batch

inductive ContextChunkingPolicy where
  | firstComeFirstServed
  | equalProgress
  | forceChunk
deriving DecidableEq, Repr

structure ContextChunkingConfig where
  chunkingPolicy : ContextChunkingPolicy
  chunkUnitSize : Nat
  stateSnapshotInterval : Option Nat := none
  snapshotsInEngine : Bool := false
  visualSnapshotTokensPerBlock : Nat := 0
  lastSnapshotTokensPerBlock : Nat := 0
deriving DecidableEq, Repr

def reuseAdjustedCompute (chunkSize reusable contextRemaining : Nat) : Nat :=
  if reusable = 0 then chunkSize
  else if reusable + chunkSize < contextRemaining then chunkSize
  else contextRemaining - reusable

def exceeds (limit : Option Nat) (amount : Nat) : Bool := limit.any (· < amount)

-- Only on the first chunk, and never more than the remaining context.
def LlmRequest.policyReusable (req : LlmRequest) : Nat :=
  if req.isFirstContextChunk then min req.estimatedReusableTokens req.getContextRemainingLength else 0

def LlmRequest.policyCompute (req : LlmRequest) (chunkSize : Nat) : Nat :=
  reuseAdjustedCompute chunkSize req.policyReusable req.getContextRemainingLength

def LlmRequest.chunkCompute (req : LlmRequest) : Nat := req.policyCompute req.contextChunkSize

def totalCompute (contexts : List LlmRequest) : Nat := (contexts.map LlmRequest.chunkCompute).sum

section EqualProgress
variable (capacity : Option Nat) (unit : Nat) (maxContextLength : Option Nat)

def equalProgressTurn (numCtxTokens : Nat) (req : LlmRequest) : LlmRequest × Nat × Nat :=
  let past := req.contextChunkSize
  let grown := req.setContextChunkSize (past + unit)
  let increment := req.policyCompute grown.contextChunkSize - req.policyCompute past
  if exceeds capacity (numCtxTokens + increment) || exceeds maxContextLength grown.contextChunkSize then
    (grown.setContextChunkSize past, 0, 0)
  else (grown, increment, grown.contextChunkSize - past)

def equalProgressPass : Nat → List LlmRequest → List LlmRequest × Nat × Nat
  | numCtxTokens, [] => ([], numCtxTokens, 0)
  | numCtxTokens, req :: rest =>
    let turn := equalProgressTurn capacity unit maxContextLength numCtxTokens req
    let tail := equalProgressPass (numCtxTokens + turn.2.1) rest
    (turn.1 :: tail.1, tail.2.1, turn.2.2 + tail.2.2)

-- Every pass that goes on lengthens some chunk, so the remaining context bounds the passes.
def equalProgressLoop : Nat → Nat → Nat → List LlmRequest → Option (List LlmRequest)
  | 0, _, _, _ => none
  | fuel + 1, numCtxTokens, numTokensSingleLoop, contexts =>
    if capacity.all (numCtxTokens < ·) && decide (numTokensSingleLoop ≠ 0) then
      let pass := equalProgressPass capacity unit maxContextLength numCtxTokens contexts
      equalProgressLoop fuel pass.2.1 pass.2.2 pass.1
    else some contexts

def totalRemaining (contexts : List LlmRequest) : Nat :=
  (contexts.map LlmRequest.getContextRemainingLength).sum

def equalProgressChunks (contexts : List LlmRequest) : Except BatchError (List LlmRequest) :=
  match equalProgressLoop capacity unit maxContextLength (totalRemaining contexts + 2) 0 1 contexts with
  | some chunked => .ok chunked
  | none => .error .diverged

end EqualProgress

section FirstComeFirstServed
variable (unit : Nat) (maxContextLength : Option Nat)

def trimToCapacity (capacity : Option Nat) (req : LlmRequest) : Nat :=
  match capacity with
  | some limit => if limit < req.policyCompute req.getContextRemainingLength then limit else req.getContextRemainingLength
  | none => req.getContextRemainingLength

def trimToLength (req : LlmRequest) (size : Nat) : Nat :=
  match maxContextLength with
  | some limit => if limit < req.policyCompute size then min limit req.getContextRemainingLength else size
  | none => size

def firstComeSize (capacity : Option Nat) (req : LlmRequest) : Nat :=
  let size := trimToLength maxContextLength req (trimToCapacity capacity req)
  if size ≠ req.getContextRemainingLength then size / unit * unit else size

def firstComeChunks : Option Nat → List LlmRequest → List LlmRequest
  | _, [] => []
  | capacity, req :: rest =>
    let size := firstComeSize unit maxContextLength capacity req
    req.setContextChunkSize size :: firstComeChunks (capacity.map (· - req.policyCompute size)) rest

end FirstComeFirstServed

section ForceChunk
variable (capacity : Option Nat) (unit : Nat)

def forcedChunks : Nat → List LlmRequest → List LlmRequest
  | _, [] => []
  | totalTokens, req :: rest =>
    let size := min req.getContextRemainingLength unit
    if exceeds capacity (totalTokens + size) then
      req.setContextChunkSize 0 :: forcedChunks totalTokens rest
    else
      let forced := req.setContextChunkSize size
      forced :: forcedChunks (totalTokens + forced.contextChunkSize) rest

def forceChunkSizes (maxContextLength : Option Nat) (contexts : List LlmRequest) : Except BatchError (List LlmRequest) :=
  match maxContextLength with
  | some limit =>
    if limit < unit then .error (.forcedChunkExceedsLimit unit limit)
    else .ok (forcedChunks capacity unit 0 contexts)
  | none => .ok (forcedChunks capacity unit 0 contexts)

end ForceChunk

section SnapshotAlignment
variable (interval visualTokensPerBlock lastTokensPerBlock : Nat) (snapshotsInEngine : Bool)

def LlmRequest.snapshotStart (req : LlmRequest) : Nat :=
  max req.contextCurrentPosition (if req.isFirstContextChunk then req.estimatedReusableTokens else 0)

def LlmRequest.snapshotLimit (req : LlmRequest) : Nat :=
  req.snapshotStart + min req.contextChunkSize (req.promptLen - req.snapshotStart)

def LlmRequest.lastFullBoundary (req : LlmRequest) : Nat :=
  req.promptLen / lastTokensPerBlock * lastTokensPerBlock

def engineBoundary (req : LlmRequest) : Except BatchError Nat :=
  if 0 < visualTokensPerBlock ∧ req.snapshotLimit < req.promptLen then
    (getRecurrentStateSnapshotBoundaries req visualTokensPerBlock interval).map fun boundaries =>
      (boundaries.takeWhile (· ≤ req.snapshotLimit)).getLastD req.snapshotStart
  else if req.snapshotLimit = req.promptLen then .ok req.promptLen
  else .ok (req.snapshotLimit / interval * interval)

-- The engine writes the inner snapshots, so a chunk may pass several boundaries.
def engineAlignedSize (req : LlmRequest) : Except BatchError Nat :=
  (engineBoundary interval visualTokensPerBlock req).map fun reached =>
    (if 0 < lastTokensPerBlock ∧ req.lastFullBoundary lastTokensPerBlock ≤ req.snapshotLimit then
      max reached (req.lastFullBoundary lastTokensPerBlock)
    else reached) - req.snapshotStart

def nextPlannedBoundary (req : LlmRequest) : Except BatchError Nat :=
  if 0 < visualTokensPerBlock then
    (getRecurrentStateSnapshotBoundaries req visualTokensPerBlock interval).map fun boundaries =>
      (boundaries.find? (req.snapshotStart < ·)).getD req.promptLen
  else .ok (min req.promptLen ((req.snapshotStart / interval + 1) * interval))

def nextSnapshotBoundary (req : LlmRequest) : Except BatchError Nat :=
  (nextPlannedBoundary interval visualTokensPerBlock req).map fun next =>
    if 0 < lastTokensPerBlock ∧ req.snapshotStart < req.lastFullBoundary lastTokensPerBlock then
      min next (req.lastFullBoundary lastTokensPerBlock)
    else next

-- A chunk that cannot reach its next snapshot is not executed.
def stepAlignedSize (req : LlmRequest) : Except BatchError Nat :=
  (nextSnapshotBoundary interval visualTokensPerBlock lastTokensPerBlock req).map fun next =>
    if next - req.snapshotStart ≤ req.contextChunkSize then next - req.snapshotStart else 0

def alignRequest (req : LlmRequest) : Except BatchError LlmRequest :=
  if req.contextChunkSize = 0 then .ok req
  else if req.promptLen ≤ req.snapshotStart then
    .error (.snapshotStartBeyondPrompt req.snapshotStart req.promptLen req.requestId)
  else if snapshotsInEngine then
    (engineAlignedSize interval visualTokensPerBlock lastTokensPerBlock req).map req.setContextChunkSize
  else (stepAlignedSize interval visualTokensPerBlock lastTokensPerBlock req).map req.setContextChunkSize

def alignToStateSnapshotBoundaries (contexts : List LlmRequest) : Except BatchError (List LlmRequest) :=
  if interval = 0 then .error .snapshotIntervalNotPositive
  else contexts.mapM (alignRequest interval visualTokensPerBlock lastTokensPerBlock snapshotsInEngine)

end SnapshotAlignment

-- The room is signed: a chunk beyond the limits leaves a negative one. Discarding more drafts than there are
-- raises.
def boundedRoom (limit : Option Nat) (used room : Int) : Int :=
  match limit with
  | some bound => min room ((bound : Int) - used)
  | none => room

section DraftTokens
variable (capacity : Option Nat) (unit : Nat) (maxContextLength : Option Nat)

def draftRoom (numCtxTokens : Int) (req : LlmRequest) : Int :=
  let remainder := req.contextChunkSize % unit
  let inUnit : Int := if remainder = 0 then 0 else (unit : Int) - (remainder : Int)
  boundedRoom capacity numCtxTokens (boundedRoom maxContextLength req.contextChunkSize inUnit)

def dropDraftTokens (room : Int) (req : LlmRequest) : Except BatchError LlmRequest :=
  if 0 < (req.numDraftTokens : Int) - room then req.discardDraftTokens ((req.numDraftTokens : Int) - room)
  else .ok req

def fitDraftTokensFrom : Int → List LlmRequest → Except BatchError (List LlmRequest)
  | _, [] => .ok []
  | numCtxTokens, req :: rest =>
    if req.isLastContextChunk ∧ req.numDraftTokens ≠ 0 then do
      let room := draftRoom capacity unit maxContextLength numCtxTokens req
      let fitted ← dropDraftTokens room req
      let others ← fitDraftTokensFrom (if capacity.isSome then numCtxTokens + room else numCtxTokens) rest
      return fitted :: others
    else (fitDraftTokensFrom numCtxTokens rest).map (req :: ·)

def fitDraftTokens (contexts : List LlmRequest) : Except BatchError (List LlmRequest) :=
  fitDraftTokensFrom capacity unit maxContextLength (totalCompute contexts) contexts

end DraftTokens

def policyChunkSizes (policy : ContextChunkingPolicy) (capacity : Option Nat) (unit : Nat)
    (maxContextLength : Option Nat) (contexts : List LlmRequest) : Except BatchError (List LlmRequest) :=
  match policy with
  | .equalProgress => equalProgressChunks capacity unit maxContextLength contexts
  | .firstComeFirstServed => .ok (firstComeChunks unit maxContextLength capacity contexts)
  | .forceChunk => forceChunkSizes capacity unit maxContextLength contexts

def alignIfSnapshots (config : ContextChunkingConfig) (contexts : List LlmRequest) : Except BatchError (List LlmRequest) :=
  match config.stateSnapshotInterval with
  | some interval => alignToStateSnapshotBoundaries interval config.visualSnapshotTokensPerBlock
      config.lastSnapshotTokensPerBlock config.snapshotsInEngine contexts
  | none => .ok contexts

def setCtxRequestsChunkSize (config : ContextChunkingConfig) (capacity maxContextLength : Option Nat)
    (contexts : List LlmRequest) : Except BatchError (List LlmRequest) := do
  let reset := contexts.map (·.setContextChunkSize 0)
  let chunked ← policyChunkSizes config.chunkingPolicy capacity config.chunkUnitSize maxContextLength reset
  let aligned ← alignIfSnapshots config chunked
  fitDraftTokens capacity config.chunkUnitSize maxContextLength aligned

end TrtLlm.Batch
