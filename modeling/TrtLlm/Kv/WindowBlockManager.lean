import TrtLlm.Kv.EvictionPolicy
import TrtLlm.SnapshotBoundaries

set_option autoImplicit false

namespace TrtLlm.Kv
open Batch (LlmRequest)
open Lib (Table Trie)

structure TokenRangeRetentionConfig where
  tokenStart : Nat
  tokenEnd : Option Nat
  priority : RetentionPriority
  durationMs : Option Nat
deriving DecidableEq, Repr

-- extraKeys gives the multimodal keys of a token range.
structure CacheRequest where
  request : LlmRequest
  uniqueTokens : List UniqueToken
  encoderUniqueTokens : Option (List UniqueToken)
  usesExtraIds : Bool
  cacheSalt : Option String
  extraKeys : Nat → Nat → List MmKey
  tokenRangeRetentionConfigs : List TokenRangeRetentionConfig
  decodeRetentionPriority : RetentionPriority
  decodeDurationMs : Option Nat

def ceilDiv (length tokensPerBlock : Nat) : Nat := (length + tokensPerBlock - 1) / tokensPerBlock

def chopFrom {Token : Type} (elementsPerBlock : Nat) : Nat → List Token → List (List Token)
  | 0, _ => []
  | blocks + 1, tokens => tokens.take elementsPerBlock :: chopFrom elementsPerBlock blocks (tokens.drop elementsPerBlock)

-- A usable size beyond the vector raises.
def chopVectorIntoBlocks {Token : Type} (tokens : List Token) (usableSize elementsPerBlock : Nat) (allowPartial : Bool) :
    Option (List (List Token)) :=
  if usableSize ≤ tokens.length then
    let blocks := if allowPartial then ceilDiv usableSize elementsPerBlock else usableSize / elementsPerBlock
    some (chopFrom elementsPerBlock blocks (tokens.take usableSize))
  else none

def buildBlockKeysFrom (req : CacheRequest) : Nat → List (List UniqueToken) → List BlockKey
  | _, [] => []
  | current, tokens :: rest =>
    ⟨req.usesExtraIds, req.request.loraTaskId, tokens, req.extraKeys current (current + tokens.length), req.cacheSalt⟩ ::
      buildBlockKeysFrom req (current + tokens.length) rest

variable (req : CacheRequest)

def buildBlockKeys (blocked : List (List UniqueToken)) : List BlockKey :=
  buildBlockKeysFrom req 0 blocked

def getMaterializedUniqueTokenCountForReuse : Nat :=
  if 0 < req.request.getContextRemainingLength then min req.uniqueTokens.length req.request.contextCurrentPosition
  else req.uniqueTokens.length

def getUsableUniqueTokenCountForReuse : Nat := getMaterializedUniqueTokenCountForReuse req - 1

-- At position 0 everything but the last token.
def usableUniqueTokenCount : Nat :=
  if getUsableUniqueTokenCountForReuse req = 0 ∧ req.request.contextCurrentPosition = 0 then req.uniqueTokens.length - 1
  else getUsableUniqueTokenCountForReuse req

structure RetentionPriorityAndDuration where
  retentionPriority : Option RetentionPriority
  durationMs : Option Nat
deriving DecidableEq, Repr

def rangeOver (tokenLoc : Nat) (entry : TokenRangeRetentionConfig) : Bool :=
  match entry.tokenEnd with
  | none => false
  | some last => decide (last ≤ tokenLoc)

def retentionsFrom (blockSize : Nat) : Nat → Nat → List TokenRangeRetentionConfig → List RetentionPriorityAndDuration
  | 0, _, _ => []
  | blocks + 1, tokenLoc, ranges =>
    let left := ranges.dropWhile (rangeOver tokenLoc)
    let retention := match left with
      | [] => ⟨none, none⟩
      | entry :: _ => if tokenLoc < entry.tokenStart then ⟨none, none⟩ else ⟨some entry.priority, entry.durationMs⟩
    retention :: retentionsFrom blockSize blocks (tokenLoc + blockSize) left

def getPerBlockRetentionPriorityDuration (blockSize seqLen : Nat) : List RetentionPriorityAndDuration :=
  retentionsFrom blockSize (ceilDiv seqLen blockSize) 0 req.tokenRangeRetentionConfigs

structure LinearAttentionMetadata where
  statesSnapshotInterval : Nat
  saveLastSnapshot : Bool
  visualBoundarySnapshots : Bool
deriving DecidableEq, Repr

-- Whether the block ending at a token gets memory for a recurrent state.
def LinearAttentionMetadata.shouldAllocateRecurrentStates (metadata : LinearAttentionMetadata)
    (currentBlockEndTokenIdx promptLen tokensPerBlock : Nat) (enableIntervalSnapshots : Bool) : Bool :=
  (metadata.saveLastSnapshot && decide (currentBlockEndTokenIdx / tokensPerBlock = promptLen / tokensPerBlock)) ||
    (decide (promptLen ≤ currentBlockEndTokenIdx) && decide (currentBlockEndTokenIdx < promptLen + tokensPerBlock)) ||
    (enableIntervalSnapshots && decide (0 < metadata.statesSnapshotInterval) &&
      decide (currentBlockEndTokenIdx % metadata.statesSnapshotInterval = 0))

-- The order findPartiallyMatchingNodes gives the children: longest match first. That of equal ones is the hash
-- map's and the sort's.
structure MatchOrder where
  sort : List (Nat × Nat) → List (Nat × Nat)
  perm : ∀ found, (sort found).Perm found
  sorted : ∀ found, (sort found).Pairwise fun left right => right.1 ≤ left.1

-- Equal matches stay in the order of the map.
def longestFirst : MatchOrder where
  sort := List.insertionSort fun left right => right.1 ≤ left.1
  perm := fun found => List.perm_insertionSort _ found
  sorted := fun found => by
    have : Std.Total (fun left right : Nat × Nat => right.1 ≤ left.1) := ⟨fun left right => Nat.le_total _ _⟩
    have : IsTrans (Nat × Nat) (fun left right => right.1 ≤ left.1) := ⟨fun _ _ _ one two => Nat.le_trans two one⟩
    exact List.pairwise_insertionSort _ found

-- A window slides only when its size is not the encoded recurrent-state size.
structure WindowConfig where
  windowSize : Int
  tokensPerBlock : Nat
  isSWA : Bool
  isRecurrentState : Bool
  isCross : Bool
  enablePartialReuse : Bool
  copyOnPartialReuse : Bool
  linearAttention : LinearAttentionMetadata
  sortMatches : MatchOrder
  tokens_pos : 0 < tokensPerBlock := by decide
  swa_not_recurrent : isSWA = true → isRecurrentState = false := by decide
  swa_window : isSWA = true → 0 ≤ windowSize := by decide

-- A block of this manager, or an on-demand placeholder with the references it was given.
inductive Slot (n : Nat) where
  | block (id : Fin n)
  | sentinel (refCount : Nat)
deriving DecidableEq, Repr

namespace Slot
variable {n : Nat}

def id? : Slot n → Option (Fin n)
  | .block id => some id
  | .sentinel _ => none

end Slot

structure Sequence (n : Nat) where
  numTokens : Nat
  beamWidth : Nat
  cacheBlockIds : List (List (Option (Fin n)))
  allocated : List (Slot n)
  numFrontBlocksRemoved : Nat
  currentPrepopulatedPromptLen : Option Nat
  decodeRetentionPriority : RetentionPriority
  decodeDurationMs : Option Nat
deriving DecidableEq, Repr

abbrev LookupTree := Trie BlockKey Int Nat

structure Manager (n : Nat) where
  pool : Pool n
  tree : LookupTree
  sequences : Table Nat (Sequence n)

namespace Manager
variable {n : Nat} (m : Manager n)

def block (id : Fin n) : Block := m.pool.blocks id

def modifyBlock (id : Fin n) (change : Block → Block) : Manager n := { m with pool := m.pool.modify id change }

def incRefCount (id : Fin n) : Manager n := m.modifyBlock id fun block => { block with refCount := block.refCount + 1 }

def decRefCount (id : Fin n) : Option (Manager n) :=
  if (m.block id).hasRefs then some (m.modifyBlock id fun block => { block with refCount := block.refCount - 1 }) else none

def releaseBlock (id : Fin n) (toFront : Bool) : Manager n := { m with pool := m.pool.releaseBlock id toFront }

def claimBlock (id : Fin n) (priority : Option RetentionPriority) (durationMs : Option Nat) : Manager n :=
  { m with pool := m.pool.claimBlock id priority durationMs }

def releaseIfFree (id : Fin n) (toFront : Bool) : Manager n :=
  if (m.block id).hasRefs then m else m.releaseBlock id toFront

def setBlockKey (id : Fin n) (key : BlockKey) (isFull : Bool) : Manager n :=
  m.modifyBlock id fun block => { block with blockKey := key, isFull := isFull }

def modifySequence (requestId : Nat) (change : Sequence n → Sequence n) : Manager n :=
  { m with sequences := m.sequences.update requestId change }

def getSequence (requestId : Nat) : Option (Sequence n) := m.sequences.find requestId

def hasFreeBlocks (numRequired : Nat) : Bool := decide ((numRequired : Int) ≤ m.pool.numFreeBlocks .primary)

variable (config : WindowConfig)

def blockAt (node : Nat) : Option (Fin n) :=
  match m.tree.getValue node config.windowSize with
  | none => none
  | some value => if inside : value < n then some ⟨value, inside⟩ else none

def isLeaf (id : Fin n) : Bool :=
  match (m.block id).lookupNode with
  | none => true
  | some node => !m.tree.hasChildren node

def detachFromLookupNode (id : Fin n) : Option (Manager n) :=
  match (m.block id).lookupNode with
  | none => some m
  | some node =>
    match m.tree.clearValue node config.windowSize with
    | none => none
    | some tree => some { m.modifyBlock id fun block => { block with lookupNode := none } with tree := tree }

def attachToLookupNode (id : Fin n) (node : Nat) : Option (Manager n) :=
  match m.tree.setValue node config.windowSize id.val with
  | none => none
  | some tree => some { m.modifyBlock id fun block => { block with lookupNode := some node } with tree := tree }

-- The contents of the chosen block move to a free secondary block, which takes over the primary memory.
def offloadFirst (id : Fin n) : Option (Fin n × Manager n) :=
  match m.pool.getFreeBlock .secondary with
  | none => none
  | some (offloadBlock, _) =>
    let pool := (m.pool.claimBlock id none none).claimBlock offloadBlock none none
    some (offloadBlock, { m with pool := (pool.swapMemoryPoolBlockOffset id offloadBlock).releaseBlock id false })

def acquire (id : Fin n) (priority : RetentionPriority) (durationMs : Option Nat) : Option (Fin n × Manager n) :=
  match m.detachFromLookupNode config id with
  | none => none
  | some detached => some (id, detached.claimBlock id (some priority) durationMs)

def getFreeBlock (priority : RetentionPriority) (durationMs : Option Nat) (wantPlaceholder : Bool) : Option (Fin n × Manager n) :=
  match m.pool.getFreeBlock (if wantPlaceholder then .placeholder else .primary) with
  | none => none
  | some (id, canOffload) =>
    if !wantPlaceholder && !(m.block id).blockKey.uniqueTokens.isEmpty && canOffload &&
        decide (0 < m.pool.numFreeBlocks .secondary) then
      match m.offloadFirst id with
      | none => none
      | some (offloadBlock, offloaded) => offloaded.acquire config offloadBlock priority durationMs
    else m.acquire config id priority durationMs

def onboardBlock (id : Fin n) : Option (Manager n) :=
  if !(m.block id).isPlaceholder && !(m.block id).memoryPoolBlockIndex.isPrimary then
    match m.getFreeBlock config defaultRetentionPriority none false with
    | none => none
    | some (fresh, acquired) =>
      some { acquired with pool := (acquired.pool.swapMemoryPoolBlockOffset id fresh).releaseBlock fresh false }
  else some m

def addBlockToBeam (slot : Slot n) (requestId beamIdx : Nat) : Manager n :=
  let referenced :=
    match slot with
    | .block id => m.incRefCount id
    | .sentinel _ => m
  referenced.modifySequence requestId fun sequence =>
    { sequence with
      cacheBlockIds := sequence.cacheBlockIds.modify beamIdx fun ids => ids ++ [slot.id?]
      allocated := sequence.allocated ++ [slot] }

def addBlockToBeams (slot : Slot n) (requestId : Nat) : List Nat → Manager n → Manager n
  | [], m => m
  | beamIdx :: rest, m => addBlockToBeams slot requestId rest (m.addBlockToBeam slot requestId beamIdx)

def addBlockToAllBeams (slot : Slot n) (requestId beamWidth : Nat) : Manager n :=
  addBlockToBeams slot requestId (List.range beamWidth) m

def allocateForBeams (requestId : Nat) (priority : RetentionPriority) (durationMs : Option Nat) :
    List Nat → Manager n → Option (Manager n)
  | [], m => some m
  | beamIdx :: rest, m =>
    match m.getFreeBlock config priority durationMs false with
    | none => none
    | some (id, acquired) =>
      allocateForBeams requestId priority durationMs rest (acquired.addBlockToBeam (.block id) requestId beamIdx)

end Manager

end TrtLlm.Kv
