import TrtLlm.Kv.WindowBlockManager

set_option autoImplicit false

namespace TrtLlm.Kv
namespace Manager
variable {n : Nat} (config : WindowConfig)

section Allocate

def swapInPlaceholder (placeholder : Fin n) (requestId : Nat) : List (Nat × Fin n) → Manager n → Option (Manager n)
  | [], m => some m
  | (beamIdx, last) :: rest, m =>
    if (m.block last).isPlaceholder then none
    else
      let key := (m.block placeholder).blockKey
      let isFull := (m.block last).isFull
      let keyed := (m.setBlockKey placeholder (m.block last).blockKey isFull).setBlockKey last key isFull
      match (keyed.addBlockToBeam (.block placeholder) requestId beamIdx).decRefCount last with
      | none => none
      | some swapped => swapInPlaceholder placeholder requestId rest swapped

def restoreLast (requestId : Nat) (beamWidthChanged : Bool) (priority : RetentionPriority) (durationMs : Option Nat) :
    List (Nat × Fin n) → Manager n → Option (Manager n)
  | [], m => some m
  | (beamIdx, last) :: rest, m =>
    if beamWidthChanged && decide (0 < beamIdx) then
      match m.getFreeBlock config priority durationMs false with
      | none => none
      | some (id, acquired) =>
        restoreLast requestId beamWidthChanged priority durationMs rest
          (acquired.addBlockToBeam (.block id) requestId beamIdx)
    else
      restoreLast requestId beamWidthChanged priority durationMs rest (m.addBlockToBeam (.block last) requestId beamIdx)

def lastBlocks (sequence : Sequence n) : Option (List (Fin n)) :=
  (sequence.cacheBlockIds.map fun ids => ids.getLast?.join).mapM fun last => last

def popLastBlocks (sequence : Sequence n) : Sequence n :=
  { sequence with
    cacheBlockIds := sequence.cacheBlockIds.map List.dropLast
    allocated := sequence.allocated.take (((sequence.cacheBlockIds.headD []).length - 1) * sequence.beamWidth) }

variable (m : Manager n)

-- The state of a recurrent window stays in the last block, so a new position is a placeholder before it. False:
-- the caller allocates.
def tryAllocatePlaceholderForLinearAttention (requestId : Nat) (sequence : Sequence n)
    (shareAmongBeams : Bool) : Option (Bool × Manager n) :=
  match sequence.cacheBlockIds.headD [] with
  | [] => some (false, m)
  | _ :: _ =>
    match lastBlocks sequence with
    | none => none
    | some [] => none
    | some (first :: others) =>
      if (m.block first).lookupNode.isSome && config.linearAttention.saveLastSnapshot then some (false, m)
      else
        let isLastBlockSharedAmongBeams := others.all fun last => decide (last = first)
        let beamWidthChanged :=
          decide (sequence.beamWidth ≠ 1) && (isLastBlockSharedAmongBeams != shareAmongBeams)
        match m.getFreeBlock config defaultRetentionPriority none true with
        | none => none
        | some (placeholder, acquired) =>
          if beamWidthChanged && !isLastBlockSharedAmongBeams then none
          else
            let beams := (List.range sequence.beamWidth).zip (first :: others)
            let popped := acquired.modifySequence requestId popLastBlocks
            match swapInPlaceholder placeholder requestId beams popped with
            | none => none
            | some swapped =>
              match restoreLast config requestId beamWidthChanged sequence.decodeRetentionPriority
                  sequence.decodeDurationMs beams swapped with
              | none => none
              | some restored => some (true, restored)

variable (requestId : Nat)

def allocateFresh (sequence : Sequence n) (shareAmongBeams : Bool) : Option (Manager n) :=
  if !m.hasFreeBlocks (if shareAmongBeams then 1 else sequence.beamWidth) then none
  else if shareAmongBeams then
    match m.getFreeBlock config sequence.decodeRetentionPriority sequence.decodeDurationMs false with
    | none => none
    | some (id, acquired) => some (acquired.addBlockToAllBeams (.block id) requestId sequence.beamWidth)
  else
    allocateForBeams config requestId sequence.decodeRetentionPriority sequence.decodeDurationMs
      (List.range sequence.beamWidth) m

def allocateBlock (sequence : Sequence n) (shareAmongBeams : Bool) : Option (Manager n) :=
  if config.isRecurrentState then
    match m.tryAllocatePlaceholderForLinearAttention config requestId sequence shareAmongBeams with
    | none => none
    | some (true, allocated) => some allocated
    | some (false, _) => m.allocateFresh config requestId sequence shareAmongBeams
  else m.allocateFresh config requestId sequence shareAmongBeams

-- The slot becomes an on-demand placeholder; the block keeps its priority and loses its duration.
def detachFrontBlock (sequence : Sequence n) : Option (Manager n) :=
  if sequence.beamWidth ≠ 1 then none
  else
    match sequence.allocated[sequence.numFrontBlocksRemoved]? with
    | none => none
    | some slot =>
      let replaced := m.modifySequence requestId fun sequence =>
        { sequence with
          allocated := sequence.allocated.set sequence.numFrontBlocksRemoved (.sentinel 0)
          numFrontBlocksRemoved := sequence.numFrontBlocksRemoved + 1 }
      match slot with
      | .sentinel 0 => none
      | .sentinel (_ + 1) => some replaced
      | .block id =>
        let cleared := replaced.modifyBlock id fun block => { block with durationMs := none, expirationTime := none }
        match cleared.decRefCount id with
        | none => none
        | some released => some (released.releaseIfFree id false)

def outOfWindow (sequence : Sequence n) : Bool :=
  config.isSWA && decide (config.windowSize + config.tokensPerBlock ≤
    (sequence.numTokens : Int) - sequence.numFrontBlocksRemoved * config.tokensPerBlock)

def detachFrontBlocks (requestId : Nat) : Nat → Manager n → Option (Manager n)
  | 0, m => some m
  | rounds + 1, m =>
    match m.getSequence requestId with
    | none => none
    | some sequence =>
      if outOfWindow config sequence then
        match m.detachFrontBlock requestId sequence with
        | none => none
        | some detached => detachFrontBlocks requestId rounds detached
      else some m

-- Each round moves the window by at least a token.
def adjustBlocksIfNeeded : Option (Manager n) :=
  match m.getSequence requestId with
  | none => none
  | some sequence =>
    match detachFrontBlocks config requestId (sequence.numTokens + 1) m with
    | none => none
    | some adjusted =>
      if ((sequence.numTokens : Int) - 1) % config.tokensPerBlock = 0 then
        match adjusted.getSequence requestId with
        | none => none
        | some current => adjusted.allocateBlock config requestId current (current.beamWidth == 1)
      else some adjusted

def addToken (requestId count : Nat) : Option (Manager n) :=
  (m.modifySequence requestId fun sequence =>
    { sequence with numTokens := sequence.numTokens + count }).adjustBlocksIfNeeded config requestId

end Allocate

section Store
variable (m : Manager n)

def storeBlock (id : Fin n) (node : Nat) (key : BlockKey) : Option (Manager n) :=
  match m.detachFromLookupNode config id with
  | none => none
  | some detached =>
    (detached.setBlockKey id key (key.uniqueTokens.length = config.tokensPerBlock)).attachToLookupNode config id node

-- A free block is claimed before it is referenced.
def pinBlock (id : Fin n) : Manager n :=
  let claimed :=
    if (m.block id).hasRefs then m else m.claimBlock id (some (m.block id).priority) (m.block id).durationMs
  claimed.incRefCount id

def pinWhen (pinBlocks : Bool) (m : Manager n) (id : Fin n) : Manager n × List (Fin n) :=
  if pinBlocks then (m.pinBlock id, [id]) else (m, [])

-- On-demand placeholders are passed over, pooled ones stored but never pinned.
def storeSlot (node : Nat) (key : BlockKey) (slot : Slot n) (pinBlocks : Bool) : Option (Manager n × List (Fin n)) :=
  match slot with
  | .sentinel _ => some (m, [])
  | .block id =>
    match m.blockAt config node with
    | some existing => some (if (m.block id).isPlaceholder then (m, []) else pinWhen pinBlocks m existing)
    | none =>
      match m.storeBlock config id node key with
      | none => none
      | some stored => some (if (m.block id).isPlaceholder then (stored, []) else pinWhen pinBlocks stored id)

def storeSlots (pinBlocks : Bool) : List (Nat × BlockKey × Slot n) → Manager n → Option (Manager n × List (Fin n))
  | [], m => some (m, [])
  | (node, key, slot) :: rest, m =>
    match m.storeSlot config node key slot pinBlocks with
    | none => none
    | some (stored, pinned) =>
      match storeSlots pinBlocks rest stored with
      | none => none
      | some (finished, others) => some (finished, pinned ++ others)

def storeBlocks (keys : List BlockKey) (slots : List (Slot n)) (pinBlocks : Bool) : Option (Manager n × List (Fin n)) :=
  let used := keys.take slots.length
  let inserted := m.tree.insertNodes used
  storeSlots config pinBlocks (inserted.2.zip (used.zip slots)) { m with tree := inserted.1 }

variable (sequence : Sequence n)

def beamZeroSlots : List (Slot n) :=
  (List.range (ceilDiv sequence.allocated.length sequence.beamWidth)).filterMap fun row =>
    sequence.allocated[row * sequence.beamWidth]?

variable (req : CacheRequest)

def storeContextBlocks : Option (Manager n) :=
  if req.uniqueTokens.isEmpty then some m
  else
    match chopVectorIntoBlocks req.uniqueTokens (usableUniqueTokenCount req) config.tokensPerBlock false with
    | none => none
    | some blocked =>
      -- the ids of beam 0 up to the first that getBlockById does not know
      let blocks := ((sequence.cacheBlockIds.headD []).takeWhile Option.isSome).filterMap fun id => id.map Slot.block
      (m.storeBlocks config (buildBlockKeys req blocked) blocks false).map Prod.fst

def hasPrevBlock (id : Fin n) : Bool :=
  match (m.block id).lookupNode with
  | none => false
  | some node =>
    match (m.tree.node node).prev with
    | none => false
    | some parent => decide (parent = 0) || (m.blockAt config parent).isSome

-- Whether storeNewBlock finds its last block stored below a stored one.
def newBlockStored (slots : List (Slot n)) (numKeys : Nat) : Bool :=
  if numKeys < 2 || slots.length < numKeys then false
  else
    match slots[numKeys - 2]?, slots[numKeys - 1]? with
    | some (.block prev), some (.block last) =>
      !(m.block prev).isPlaceholder && m.hasPrevBlock config prev &&
        (!(m.block last).isPlaceholder && m.hasPrevBlock config last)
    | _, _ => false

def storeNewBlock : Option (Manager n) :=
  if req.uniqueTokens.isEmpty || decide ((req.uniqueTokens.length - 1) % config.tokensPerBlock ≠ 0) then some m
  else
    match chopVectorIntoBlocks req.uniqueTokens (req.uniqueTokens.length - 1) config.tokensPerBlock true with
    | none => none
    | some blocked =>
      let keys := buildBlockKeys req blocked
      if m.newBlockStored config (beamZeroSlots sequence) keys.length then some m
      else (m.storeBlocks config keys (beamZeroSlots sequence) false).map Prod.fst

def storeBlocksForReuse (pinBlocks : Bool) : Option (Manager n × List (Fin n)) :=
  let usable := usableUniqueTokenCount req
  let usable := if config.isRecurrentState then min (req.request.promptLen - 1) usable else usable
  match chopVectorIntoBlocks req.uniqueTokens usable config.tokensPerBlock true with
  | none => none
  | some blocked => m.storeBlocks config (buildBlockKeys req blocked) (beamZeroSlots sequence) pinBlocks

-- Only ids of real blocks are in range.
def unpinBlocksById : List (Fin n) → Manager n → Option (Manager n)
  | [], m => some m
  | id :: rest, m =>
    if (m.block id).isPlaceholder then none
    else
      match m.decRefCount id with
      | none => none
      | some released => unpinBlocksById rest (released.releaseIfFree id false)

end Store

section Release
variable (m : Manager n)

def dropSlot (slot : Slot n) (toFront : Bool) : Option (Manager n) :=
  match slot with
  | .sentinel 0 => none
  | .sentinel (_ + 1) => some m
  | .block id =>
    match m.decRefCount id with
    | none => none
    | some released => some (released.releaseIfFree id toFront)

def dropSlots : List (Slot n) → Manager n → Option (Manager n)
  | [], m => some m
  | slot :: rest, m =>
    match m.dropSlot slot false with
    | none => none
    | some dropped => dropSlots rest dropped

def slotShared (slot : Slot n) : Bool :=
  match slot with
  | .sentinel refCount => decide (1 < refCount)
  | .block id => (m.block id).isShared

def replaceBeams (requestId blockIdx : Nat) (beamWidth : Nat) (key : BlockKey) (isFull : Bool) :
    List Nat → Manager n → Option (Manager n)
  | [], m => some m
  | beamIdx :: rest, m =>
    match m.getFreeBlock config defaultRetentionPriority none false with
    | none => none
    | some (id, acquired) =>
      let keyed := (acquired.incRefCount id).setBlockKey id key isFull
      let replaced := keyed.modifySequence requestId fun sequence =>
        { sequence with
          cacheBlockIds := sequence.cacheBlockIds.modify beamIdx fun ids => ids.set blockIdx (some id)
          allocated := sequence.allocated.set (blockIdx * beamWidth + beamIdx) (.block id) }
      replaceBeams requestId blockIdx beamWidth key isFull rest replaced

def slotKey (slot : Slot n) : BlockKey × Bool :=
  match slot with
  | .sentinel _ => (.empty, false)
  | .block id => ((m.block id).blockKey, (m.block id).isFull)

variable (requestId : Nat) (sequence : Sequence n)

def replaceSharedBlock (blockIdx : Nat) : Option (Manager n) :=
  let row := (sequence.allocated.drop (blockIdx * sequence.beamWidth)).take sequence.beamWidth
  if row.length < sequence.beamWidth then none
  else
    match row.head?, row.getLast? with
    | some first, some last =>
      if !m.slotShared last then some m
      else
        match dropSlots row m with
        | none => none
        | some dropped =>
          if !dropped.hasFreeBlocks sequence.beamWidth ||
              !(sequence.cacheBlockIds.all fun ids => decide (blockIdx < ids.length)) then none
          else
            dropped.replaceBeams config requestId blockIdx sequence.beamWidth (m.slotKey first).1 (m.slotKey first).2
              (List.range sequence.beamWidth)
    | _, _ => none

def popLast : Sequence n :=
  { sequence with
    cacheBlockIds := sequence.cacheBlockIds.map List.dropLast
    allocated := sequence.allocated.dropLast }

def popSecondLast : Sequence n :=
  { sequence with
    cacheBlockIds := sequence.cacheBlockIds.map fun ids => ids.eraseIdx (ids.length - 2)
    allocated := sequence.allocated.eraseIdx (sequence.allocated.length - 2) }

def releaseLastBlock : Option (Manager n) :=
  if config.isRecurrentState then
    match sequence.allocated.reverse with
    | _ :: .block id :: _ =>
      if !(m.block id).isPlaceholder || decide (sequence.beamWidth ≠ 1) then none
      else
        match m.dropSlot (.block id) true with
        | none => none
        | some dropped => some (dropped.modifySequence requestId popSecondLast)
    | _ => none
  else
    match sequence.allocated.getLast? with
    | none => none
    | some slot =>
      match m.dropSlot slot true with
      | none => none
      | some dropped => some (dropped.modifySequence requestId popLast)

-- From the back, one reference of each; blocks outside the tree go to the front of their queue.
def releaseSlots : List (Slot n) → Manager n → Manager n
  | [], m => m
  | .sentinel _ :: rest, m => releaseSlots rest m
  | .block id :: rest, m =>
    let released := (m.decRefCount id).getD m
    releaseSlots rest (released.releaseIfFree id (released.block id).isDetached)

def releaseBlocks (req : Option CacheRequest) : Option (Manager n) :=
  let extracted := { m with sequences := m.sequences.remove requestId }
  let stored :=
    match req with
    | none => some extracted
    | some req =>
      if config.isRecurrentState then some extracted
      else
        match chopVectorIntoBlocks req.uniqueTokens (usableUniqueTokenCount req) config.tokensPerBlock true with
        | none => none
        | some blocked =>
          (extracted.storeBlocks config (buildBlockKeys req blocked) (beamZeroSlots sequence) false).map Prod.fst
  match stored with
  | none => none
  | some stored => some (releaseSlots sequence.allocated.reverse stored)

end Release
end Manager
end TrtLlm.Kv
