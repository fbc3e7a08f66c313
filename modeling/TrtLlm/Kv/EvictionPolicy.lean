import TrtLlm.Lib.Trie

set_option autoImplicit false

namespace TrtLlm.Kv

structure UniqueToken where
  tokenId : Nat
  tokenExtraId : Nat
deriving DecidableEq, Repr

structure MmKey where
  hash : List Nat
  startOffset : Nat
deriving DecidableEq, Repr

structure BlockKey where
  usesExtraIds : Bool
  loraTaskId : Option Nat
  uniqueTokens : List UniqueToken
  extraKeys : List MmKey
  cacheSalt : Option String
deriving DecidableEq, Repr

def matchingLength : List UniqueToken → List UniqueToken → Nat
  | left :: lefts, right :: rights => if left = right then matchingLength lefts rights + 1 else 0
  | _, _ => 0

namespace BlockKey

def empty : BlockKey := ⟨false, none, [], [], none⟩

def supportsPartialMatching (key : BlockKey) : Bool := key.extraKeys.isEmpty

def numMatchingTokens (key other : BlockKey) : Nat :=
  if key.usesExtraIds = other.usesExtraIds ∧ key.loraTaskId = other.loraTaskId ∧
      key.extraKeys = other.extraKeys ∧ key.cacheSalt = other.cacheSalt then
    matchingLength key.uniqueTokens other.uniqueTokens
  else 0

end BlockKey

abbrev RetentionPriority := Fin 101

def defaultRetentionPriority : RetentionPriority := 35

def defaultSecondaryOffloadMinPriority : RetentionPriority := 30

structure KVCacheIndex where
  isPrimary : Bool
  index : Nat
deriving DecidableEq, Repr

inductive CacheLevel where
  | primary
  | secondary
  | placeholder
deriving DecidableEq, Repr

-- What decides where a block may go; hashes and their links are left out.
structure Block where
  isPlaceholder : Bool
  memoryPoolBlockIndex : KVCacheIndex
  refCount : Nat
  blockKey : BlockKey
  isFull : Bool
  lookupNode : Option Nat
  priority : RetentionPriority
  durationMs : Option Nat
  expirationTime : Option Nat
deriving DecidableEq, Repr

namespace Block
variable (block : Block)

def hasRefs : Bool := decide (0 < block.refCount)

def isDetached : Bool := block.lookupNode.isNone

def isShared : Bool := decide (1 < block.refCount) || block.lookupNode.isSome

def cacheLevel : CacheLevel :=
  if block.isPlaceholder then .placeholder
  else if block.memoryPoolBlockIndex.isPrimary then .primary else .secondary

def fresh (isPlaceholder : Bool) (index : KVCacheIndex) : Block where
  isPlaceholder := isPlaceholder
  memoryPoolBlockIndex := index
  refCount := 0
  blockKey := .empty
  isFull := false
  lookupNode := none
  priority := defaultRetentionPriority
  durationMs := none
  expirationTime := none

end Block

-- queued is "mFreeBlockIterators[id] != nullopt"; an entry of expiring carries the time under which std::set
-- ordered it; now is the clock.
structure Pool (n : Nat) where
  blocks : Fin n → Block
  freeQueues : CacheLevel → RetentionPriority → List (Fin n)
  queued : Fin n → Bool
  numFreeBlocks : CacheLevel → Int
  expiring : List (Nat × Fin n)
  secondaryOffloadMinPriority : RetentionPriority
  now : Nat

namespace Pool
variable {n : Nat} (pool : Pool n) (id : Fin n)

def modify (change : Block → Block) : Pool n :=
  { pool with blocks := Function.update pool.blocks id (change (pool.blocks id)) }

def setQueue (level : CacheLevel) (priority : RetentionPriority) (queue : List (Fin n)) : Pool n :=
  { pool with freeQueues := Function.update pool.freeQueues level (Function.update (pool.freeQueues level) priority queue) }

def addFree (level : CacheLevel) (amount : Int) : Pool n :=
  { pool with numFreeBlocks := Function.update pool.numFreeBlocks level (pool.numFreeBlocks level + amount) }

def setQueued (inside : Bool) : Pool n :=
  { pool with queued := Function.update pool.queued id inside }

def level : CacheLevel := (pool.blocks id).cacheLevel

def priority : RetentionPriority := (pool.blocks id).priority

def unqueue : Pool n :=
  (pool.setQueue (pool.level id) (pool.priority id) ((pool.freeQueues (pool.level id) (pool.priority id)).erase id))

-- The front of the first queue that is not empty, lowest priority first, and whether it may be offloaded.
def getFreeBlock (level : CacheLevel) : Option (Fin n × Bool) :=
  (List.finRange 101).findSome? fun priority =>
    match pool.freeQueues level priority with
    | [] => none
    | block :: _ => some (block, level == .primary && decide (pool.secondaryOffloadMinPriority ≤ priority))

def expire : Pool n :=
  match (pool.blocks id).durationMs with
  | none => pool
  | some duration =>
    if pool.priority id = defaultRetentionPriority then pool
    else
      { pool.modify id fun block => { block with expirationTime := some (pool.now + duration) } with
        expiring := (pool.now + duration, id) :: pool.expiring }

def releaseBlock (toFront : Bool) : Pool n :=
  let queue := pool.freeQueues (pool.level id) (pool.priority id)
  let queue := if toFront then id :: queue else queue ++ [id]
  (((pool.setQueue (pool.level id) (pool.priority id) queue).setQueued id true).addFree (pool.level id) 1).expire id

def claimBlock (priority : Option RetentionPriority) (durationMs : Option Nat) : Pool n :=
  let taken := if pool.queued id then (pool.unqueue id).addFree (pool.level id) (-1) else pool
  let taken := taken.setQueued id false
  let taken := { taken with
    expiring := taken.expiring.filter fun entry => !decide (some entry.1 = (pool.blocks id).expirationTime ∧ entry.2 = id) }
  taken.modify id fun block =>
    { block with priority := priority.getD block.priority, durationMs := durationMs }

def swapMemoryPoolBlockOffset (left right : Fin n) : Pool n :=
  let first := (pool.blocks left).memoryPoolBlockIndex
  let second := (pool.blocks right).memoryPoolBlockIndex
  (pool.modify left fun block => { block with memoryPoolBlockIndex := second }).modify right
    fun block => { block with memoryPoolBlockIndex := first }

def earliest : List (Nat × Fin n) → Option (Nat × Fin n)
  | [] => none
  | entry :: rest =>
    match earliest rest with
    | none => some entry
    | some best => if entry.1 < best.1 ∨ (entry.1 = best.1 ∧ entry.2 ≤ best.2) then some entry else some best

-- The first entry of the expiring set, if due, goes back to the default priority.
def refreshEntry (entry : Nat × Fin n) : Pool n :=
  let popped := { pool with expiring := pool.expiring.erase entry }
  let moved := if popped.queued entry.2 then
      let out := popped.unqueue entry.2
      out.setQueue (pool.level entry.2) defaultRetentionPriority
        (out.freeQueues (pool.level entry.2) defaultRetentionPriority ++ [entry.2])
    else popped
  moved.modify entry.2 fun block => { block with priority := defaultRetentionPriority }

def isDue : Bool :=
  match (pool.blocks id).expirationTime with
  | none => true
  | some time => decide (time ≤ pool.now)

def refreshRounds : Nat → Pool n → Pool n
  | 0, pool => pool
  | rounds + 1, pool =>
    match earliest pool.expiring with
    | none => pool
    | some entry => if pool.isDue entry.2 then refreshRounds rounds (pool.refreshEntry entry) else pool

-- Every round removes an entry, so the set bounds the rounds.
def refresh : Pool n := refreshRounds pool.expiring.length pool

-- Primary blocks first, then secondary ones, then the placeholders of a recurrent-state window.
def initialBlock (numPrimary numSecondary : Nat) (id : Fin n) : Block :=
  if id.val < numPrimary then .fresh false ⟨true, id.val⟩
  else if id.val < numPrimary + numSecondary then .fresh false ⟨false, id.val - numPrimary⟩
  else .fresh true ⟨true, 0⟩

def initial (numPrimary numSecondary : Nat) (secondaryOffloadMinPriority : Option RetentionPriority) : Pool n where
  blocks := initialBlock numPrimary numSecondary
  freeQueues := fun level priority =>
    if priority = defaultRetentionPriority then
      (List.finRange n).filter fun id => (initialBlock numPrimary numSecondary id).cacheLevel = level
    else []
  queued := fun _ => true
  numFreeBlocks := fun level =>
    ((List.finRange n).filter fun id => (initialBlock numPrimary numSecondary id).cacheLevel = level).length
  expiring := []
  secondaryOffloadMinPriority := secondaryOffloadMinPriority.getD defaultSecondaryOffloadMinPriority
  now := 0

end Pool

end TrtLlm.Kv
