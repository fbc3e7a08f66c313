import TrtLlm.Kv.LookupTree
import TrtLlm.Kv.SequenceOps

set_option autoImplicit false

namespace TrtLlm.Kv
open Batch (getRecurrentStateSnapshotBoundaries)
variable {n : Nat}

structure ReuseMatch (n : Nat) where
  block : Option (Fin n)
  numMatchedTokens : Nat
  isPartialMatch : Bool
deriving DecidableEq, Repr

structure ReuseMatchResult (n : Nat) where
  found : List (ReuseMatch n)
  totalMatchedTokens : Nat
deriving DecidableEq, Repr

namespace Manager
variable (m : Manager n) (config : WindowConfig)

-- The longest prefix that ends beyond the window of every anchor it misses.
structure MatchState (n : Nat) where
  candidates : List (ReuseMatch n)
  candidateMatchedTokens : Nat
  latestMissingAnchorEndToken : Nat
  safe : ReuseMatchResult n

def MatchState.start : MatchState n := ⟨[], 0, 0, ⟨[], 0⟩⟩

def MatchState.push (state : MatchState n) (found : ReuseMatch n) : MatchState n :=
  let matched := state.candidateMatchedTokens + found.numMatchedTokens
  let missing := if found.block.isNone then max state.latestMissingAnchorEndToken matched
    else state.latestMissingAnchorEndToken
  let candidates := state.candidates ++ [found]
  { candidates := candidates
    candidateMatchedTokens := matched
    latestMissingAnchorEndToken := missing
    safe :=
      if !config.isSWA || missing = 0 || decide ((missing : Int) + config.windowSize ≤ matched) then
        ⟨candidates, matched⟩
      else state.safe }

def fits (maxMatchedTokens : Option Nat) (tokens : Nat) : Bool :=
  match maxMatchedTokens with
  | none => true
  | some limit => decide (tokens ≤ limit)

def partialBlock (copyOnPartialReuse : Bool) (found : NodeMatch) : Option (Fin n × Nat) :=
  match m.blockAt config found.node with
  | none => none
  | some id =>
    if copyOnPartialReuse || (!(m.block id).hasRefs && m.isLeaf id) then some (id, found.key.getNumTokens) else none

def pushPartial (copyOnPartialReuse : Bool) (maxMatchedTokens : Option Nat) (node : Nat) (key : BlockKey)
    (state : MatchState n) : MatchState n :=
  match (LookupTree.findPartiallyMatchingNodes config.sortMatches m.tree node key).findSome? (m.partialBlock config copyOnPartialReuse) with
  | none => state
  | some (id, matched) =>
    if fits maxMatchedTokens (state.candidateMatchedTokens + matched) then
      state.push config ⟨some id, matched, true⟩
    else state

def matchFrom (enablePartialReuse copyOnPartialReuse : Bool) (maxMatchedTokens : Option Nat) :
    Nat → List BlockKey → MatchState n → MatchState n
  | _, [], state => state
  | node, key :: rest, state =>
    if key.uniqueTokens.isEmpty then state
    else
      match m.tree.findMatchingNode node key with
      | some child =>
        if !fits maxMatchedTokens (state.candidateMatchedTokens + key.uniqueTokens.length) then state
        else
          match m.blockAt config child with
          | some id =>
            matchFrom enablePartialReuse copyOnPartialReuse maxMatchedTokens child rest
              (state.push config ⟨some id, key.uniqueTokens.length, !(m.block id).isFull⟩)
          | none =>
            if config.isSWA then
              matchFrom enablePartialReuse copyOnPartialReuse maxMatchedTokens child rest
                (state.push config ⟨none, key.uniqueTokens.length, false⟩)
            else state
      | none =>
        if enablePartialReuse then m.pushPartial config copyOnPartialReuse maxMatchedTokens node key state else state

def findReusableBlockMatches (keys : List BlockKey) (enablePartialReuse copyOnPartialReuse : Bool)
    (maxMatchedTokens : Option Nat) : ReuseMatchResult n :=
  (m.matchFrom config enablePartialReuse copyOnPartialReuse maxMatchedTokens 0 keys .start).safe

end Manager

structure ClaimedBlock (n : Nat) where
  block : Option (Fin n)
  numMatchedTokens : Nat
  isPartialMatch : Bool
  needsCopy : Bool
  shouldReleaseCopySource : Bool
deriving DecidableEq, Repr

structure ClaimResult (n : Nat) where
  numContextBlocks : Nat
  numSharedContextBlocks : Nat
  totalMatchedTokens : Nat
  latestMatchingNonPlaceholderBlockIdx : Option Nat
  blockKeys : List BlockKey
  perBlockRetentions : List RetentionPriorityAndDuration
  claimedBlocks : List (ClaimedBlock n)
deriving DecidableEq, Repr

structure PartialClaim where
  requestIdx : Nat
  claimedIdx : Nat
  fullyMatched : Bool
deriving DecidableEq, Repr

abbrev PartialClaimTracker (n : Nat) := Lib.Table (Fin n) PartialClaim

structure ClaimState (n : Nat) where
  manager : Manager n
  tracker : PartialClaimTracker n
  results : List (ClaimResult n)
  claimed : List (ClaimedBlock n)
  latestNonPlaceholder : Option Nat

namespace ClaimState
variable (state : ClaimState n) (requestIdx : Nat)

def push (block : ClaimedBlock n) : ClaimState n := { state with claimed := state.claimed ++ [block] }

variable (id : Fin n)

def claim (retention : RetentionPriorityAndDuration) : ClaimState n :=
  { state with manager := state.manager.claimBlock id retention.retentionPriority retention.durationMs }

def changeClaim (entry : PartialClaim) (change : ClaimedBlock n → ClaimedBlock n) : ClaimState n :=
  { state with
    results := state.results.modify entry.requestIdx fun result =>
      { result with claimedBlocks := result.claimedBlocks.modify entry.claimedIdx change } }

def track (fullyMatched : Bool) : ClaimState n :=
  { state with tracker := (id, ⟨requestIdx, state.claimed.length, fullyMatched⟩) :: state.tracker }

-- A block that cannot be taken over is copied. The last copier of an unreferenced source gives it back.
def claimCopySource (matched : Nat) (retention : RetentionPriorityAndDuration) : ClaimState n :=
  let copy := fun release => (⟨some id, matched, true, true, release⟩ : ClaimedBlock n)
  if (state.manager.block id).hasRefs then state.push (copy false)
  else
    let claimed := state.claim id retention
    match claimed.tracker.find id with
    | none => (claimed.track requestIdx id false).push (copy true)
    | some entry =>
      if entry.fullyMatched then (claimed.track requestIdx id true).push (copy false)
      else
        ((claimed.changeClaim entry fun block => { block with shouldReleaseCopySource := false }).track
          requestIdx id false).push (copy true)

-- The last match of an unreferenced leaf takes the block over; a full match before it makes everyone copy.
def claimLeaf (matched : Nat) (retention : RetentionPriorityAndDuration) : ClaimState n :=
  let reuse := fun copy => (⟨some id, matched, true, copy, false⟩ : ClaimedBlock n)
  let decided :=
    match state.tracker.find id with
    | none => (state.track requestIdx id false).push (reuse false)
    | some entry =>
      if entry.fullyMatched then state.push (reuse true)
      else
        ((state.changeClaim entry fun block => { block with needsCopy := true }).track requestIdx id false).push
          (reuse false)
  decided.claim id retention

def claimFull (matched : Nat) (retention : RetentionPriorityAndDuration) : ClaimState n :=
  let claimed := state.claim id retention
  let full : ClaimedBlock n := ⟨some id, matched, false, false, false⟩
  match claimed.tracker.find id with
  | none => (claimed.track requestIdx id true).push full
  | some entry =>
    if entry.fullyMatched then (claimed.track requestIdx id true).push full
    else
      ({ claimed.changeClaim entry fun block => { block with needsCopy := true, shouldReleaseCopySource := false } with
        tracker := (id, { entry with fullyMatched := true }) :: claimed.tracker }).push full

def claimMatch (config : WindowConfig) (blockIdx : Nat) (found : ReuseMatch n)
    (retention : RetentionPriorityAndDuration) : Option (ClaimState n) :=
  if config.isRecurrentState && found.isPartialMatch then none
  else
    match found.block with
    | none => some (state.push ⟨none, found.numMatchedTokens, false, false, false⟩)
    | some id =>
      let seen :=
        if (state.manager.block id).isPlaceholder then state else { state with latestNonPlaceholder := some blockIdx }
      if found.isPartialMatch then
        if (seen.manager.block id).hasRefs || !seen.manager.isLeaf id then
          some (seen.claimCopySource requestIdx id found.numMatchedTokens retention)
        else some (seen.claimLeaf requestIdx id found.numMatchedTokens retention)
      else some (seen.claimFull requestIdx id found.numMatchedTokens retention)

def claimMatches (config : WindowConfig) :
    List (ReuseMatch n × RetentionPriorityAndDuration) → Nat → ClaimState n → Option (ClaimState n)
  | [], _, state => some state
  | (found, retention) :: rest, blockIdx, state =>
    match state.claimMatch requestIdx config blockIdx found retention with
    | none => none
    | some next => claimMatches config rest (blockIdx + 1) next

end ClaimState

-- The length is the one KVCacheManager caps for this window.
structure AddRequest where
  requestId : Nat
  numTokens : Nat
  inputLength : Nat
  numContextBlocks : Nat
  beamWidth : Nat
  currentPrepopulatedPromptLen : Option Nat
  req : CacheRequest
  beam_pos : 0 < beamWidth

namespace Manager
variable (m : Manager n) (config : WindowConfig) (isEnableBlockReuse : Bool) (add : AddRequest)

def newSequence : Sequence n where
  numTokens := add.numTokens
  beamWidth := add.beamWidth
  cacheBlockIds := List.replicate add.beamWidth []
  allocated := []
  numFrontBlocksRemoved := 0
  currentPrepopulatedPromptLen := add.currentPrepopulatedPromptLen
  decodeRetentionPriority := add.req.decodeRetentionPriority
  decodeDurationMs := add.req.decodeDurationMs

def emplaceSequence : Option (Manager n) :=
  match m.getSequence add.requestId with
  | some _ => none
  | none => some { m with sequences := (add.requestId, newSequence add) :: m.sequences }

def reuseTokens (req : CacheRequest) : Option (List UniqueToken) :=
  if config.isCross then req.encoderUniqueTokens else some req.uniqueTokens

def contextBlockKeys : Option (List BlockKey) :=
  match reuseTokens config add.req with
  | none => some []
  | some tokens =>
    match chopVectorIntoBlocks tokens (add.inputLength - 1) config.tokensPerBlock true with
    | none => none
    | some blocked =>
      some (buildBlockKeys add.req (if add.inputLength % config.tokensPerBlock = 1 then blocked ++ [[]] else blocked))

def numSharedContextBlocks : Nat :=
  if 1 < add.beamWidth ∧ ¬(config.isCross = true ∨ add.inputLength % config.tokensPerBlock = 0) then
    add.numContextBlocks - 1
  else add.numContextBlocks

def buildClaimResultMetadata : Option (ClaimResult n) :=
  match contextBlockKeys config add with
  | none => none
  | some keys =>
    let retentions := getPerBlockRetentionPriorityDuration add.req config.tokensPerBlock add.inputLength
    if retentions.length = add.numContextBlocks then
      some {
        numContextBlocks := add.numContextBlocks
        numSharedContextBlocks := numSharedContextBlocks config add
        totalMatchedTokens := 0
        latestMatchingNonPlaceholderBlockIdx := none
        blockKeys := keys
        perBlockRetentions := retentions
        claimedBlocks := [] }
    else none

def claimMatchingBlocks (tracker : PartialClaimTracker n) (results : List (ClaimResult n)) :
    Option (Manager n × PartialClaimTracker n × List (ClaimResult n)) :=
  if config.isRecurrentState && decide (add.inputLength ≠ add.req.request.promptLen) then none
  else
    match m.emplaceSequence add, (buildClaimResultMetadata config add : Option (ClaimResult n)) with
    | some emplaced, some result =>
      let reuseMatches := emplaced.findReusableBlockMatches config result.blockKeys config.enablePartialReuse
        config.copyOnPartialReuse add.currentPrepopulatedPromptLen
      let shared := (reuseMatches.found.take result.numSharedContextBlocks).zip result.perBlockRetentions
      match ClaimState.claimMatches results.length config shared 0 ⟨emplaced, tracker, results, [], none⟩ with
      | none => none
      | some claims =>
        some (claims.manager, claims.tracker, claims.results ++ [{ result with
          totalMatchedTokens := reuseMatches.totalMatchedTokens
          latestMatchingNonPlaceholderBlockIdx := claims.latestNonPlaceholder
          claimedBlocks := claims.claimed }])
    | _, _ => none

def setKeyWhen (id : Fin n) (key : Option BlockKey) : Manager n :=
  match key with
  | none => m
  | some key => m.setBlockKey id key (key.uniqueTokens.length = config.tokensPerBlock)

def freeLeafBlock (id : Fin n) : Option (Manager n) := if m.isLeaf id then m.detachFromLookupNode config id else none

def settleClaim (claimed : ClaimedBlock n) (id : Fin n) (key : Option BlockKey) : Option (Fin n × Manager n) :=
  if claimed.isPartialMatch && claimed.needsCopy then
    match m.getFreeBlock config (m.block id).priority (m.block id).durationMs false with
    | none => none
    | some (fresh, acquired) =>
      let released :=
        if claimed.shouldReleaseCopySource && !(acquired.block id).hasRefs then acquired.releaseBlock id false
        else acquired
      some (fresh, released.setKeyWhen config fresh key)
  else if claimed.isPartialMatch then (m.freeLeafBlock config id).map fun freed => (id, freed)
  else some (id, m)

def onboardClaim (requestId beamWidth : Nat) (claimed : ClaimedBlock n) (key : Option BlockKey) : Option (Manager n) :=
  match claimed.block with
  | none => some (m.addBlockToAllBeams (.sentinel beamWidth) requestId beamWidth)
  | some id =>
    match m.settleClaim config claimed id key with
    | none => none
    | some (block, settled) =>
      match settled.onboardBlock config block with
      | none => none
      | some onboarded => some (onboarded.addBlockToAllBeams (.block block) requestId beamWidth)

def onboardClaims (requestId beamWidth : Nat) (keys : List BlockKey) :
    List (ClaimedBlock n) → Nat → Manager n → Option (Manager n)
  | [], _, m => some m
  | claimed :: rest, blockIdx, m =>
    match m.onboardClaim config requestId beamWidth claimed keys[blockIdx]? with
    | none => none
    | some onboarded => onboardClaims requestId beamWidth keys rest (blockIdx + 1) onboarded

def shouldAllocate (boundaries : List Nat) (blockIdx : Nat) : Bool :=
  if config.isRecurrentState then
    if isEnableBlockReuse then
      config.linearAttention.shouldAllocateRecurrentStates ((blockIdx + 1) * config.tokensPerBlock)
          add.req.request.promptLen config.tokensPerBlock (!config.linearAttention.visualBoundarySnapshots) ||
        decide ((blockIdx + 1) * config.tokensPerBlock ∈ boundaries)
    else decide (blockIdx + 1 = add.numContextBlocks)
  else true

def retentionAt (result : ClaimResult n) (blockIdx : Nat) : RetentionPriorityAndDuration :=
  result.perBlockRetentions.getD blockIdx ⟨none, none⟩

def allocateShared (add : AddRequest) (result : ClaimResult n) (boundaries : List Nat) : List Nat → Manager n → Option (Manager n)
  | [], m => some m
  | blockIdx :: rest, m =>
    let retention := retentionAt result blockIdx
    match m.getFreeBlock config (retention.retentionPriority.getD defaultRetentionPriority) retention.durationMs
        (!shouldAllocate config isEnableBlockReuse add boundaries blockIdx) with
    | none => none
    | some (id, acquired) =>
      allocateShared add result boundaries rest
        ((acquired.addBlockToAllBeams (.block id) add.requestId add.beamWidth).setKeyWhen config id
          result.blockKeys[blockIdx]?)

-- Beams that do not share the last context block. Every beam takes the next key, so only the first finds one.
def allocatePerBeam (add : AddRequest) (result : ClaimResult n) (blockIdx : Nat) : List Nat → Manager n → Option (Manager n)
  | [], m => some m
  | beamIdx :: rest, m =>
    let retention := retentionAt result blockIdx
    match m.getFreeBlock config (retention.retentionPriority.getD defaultRetentionPriority) retention.durationMs
        false with
    | none => none
    | some (id, acquired) =>
      allocatePerBeam add result blockIdx rest
        ((acquired.addBlockToBeam (.block id) add.requestId beamIdx).setKeyWhen config id
          result.blockKeys[blockIdx + beamIdx]?)

def snapshotBoundaries : Option (List Nat) :=
  if config.isRecurrentState && isEnableBlockReuse && config.linearAttention.visualBoundarySnapshots then
    (getRecurrentStateSnapshotBoundaries add.req.request config.tokensPerBlock
      config.linearAttention.statesSnapshotInterval).toOption
  else some []

-- Trailing placeholders of a recurrent window are not matched.
def prepopulatedLen (result : ClaimResult n) : Nat :=
  if config.isRecurrentState then
    match result.latestMatchingNonPlaceholderBlockIdx with
    | none => 0
    | some blockIdx => (blockIdx + 1) * config.tokensPerBlock
  else min result.totalMatchedTokens (result.numSharedContextBlocks * config.tokensPerBlock)

-- The length only shrinks from window to window.
def setCurrentPrepopulatedPromptLen (requestId length : Nat) : Option (Manager n) :=
  match m.getSequence requestId with
  | none => none
  | some sequence =>
    if fits sequence.currentPrepopulatedPromptLen length then
      some (m.modifySequence requestId fun sequence => { sequence with currentPrepopulatedPromptLen := some length })
    else none

def allocateUnshared (add : AddRequest) (result : ClaimResult n) : Option (Manager n) :=
  if result.numSharedContextBlocks < result.numContextBlocks then
    allocatePerBeam config add result result.numSharedContextBlocks (List.range add.beamWidth) m
  else some m

def onboardAndAllocateBlocks (add : AddRequest) (result : ClaimResult n) : Option (Manager n) :=
  match snapshotBoundaries config isEnableBlockReuse add with
  | none => none
  | some boundaries =>
    match onboardClaims config add.requestId add.beamWidth result.blockKeys result.claimedBlocks 0 m with
    | none => none
    | some onboarded =>
      match allocateShared config isEnableBlockReuse add result boundaries
          (List.range' result.claimedBlocks.length (result.numSharedContextBlocks - result.claimedBlocks.length))
          onboarded with
      | none => none
      | some shared =>
        match shared.allocateUnshared config add result with
        | none => none
        | some allocated => allocated.setCurrentPrepopulatedPromptLen add.requestId (prepopulatedLen config result)

def claimBatch : List AddRequest → Manager n → PartialClaimTracker n → List (ClaimResult n) →
    Option (Manager n × List (ClaimResult n))
  | [], m, _, results => some (m, results)
  | add :: rest, m, tracker, results =>
    if isEnableBlockReuse then
      match m.claimMatchingBlocks config add tracker results with
      | none => none
      | some (claimed, tracked, extended) => claimBatch rest claimed tracked extended
    else
      match m.emplaceSequence add, (buildClaimResultMetadata config add : Option (ClaimResult n)) with
      | some emplaced, some result => claimBatch rest emplaced tracker (results ++ [result])
      | _, _ => none

def allocateBatch : List (AddRequest × ClaimResult n) → Manager n → Option (Manager n)
  | [], m => some m
  | (add, result) :: rest, m =>
    match m.onboardAndAllocateBlocks config isEnableBlockReuse add result with
    | none => none
    | some allocated => allocateBatch rest allocated

def addSequenceBatch (adds : List AddRequest) : Option (Manager n) :=
  match claimBatch config isEnableBlockReuse adds m [] [] with
  | none => none
  | some (claimed, results) => allocateBatch config isEnableBlockReuse (adds.zip results) claimed

end Manager
end TrtLlm.Kv
