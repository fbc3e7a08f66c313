import Mathlib

set_option autoImplicit false

namespace TrtLlm.Transfer

-- A failed TLLM_CHECK, an access past the end, a division by zero.
inductive TransferError where
  | check
  | outOfRange
  | divisionByZero
deriving DecidableEq, Repr

structure ParallelConfig where
  tensorParallelism : Nat
  pipelineParallelism : Nat
  contextParallelism : Nat
  enableAttentionDP : Bool
  dpRank : Nat
  dpSize : Nat
  attentionLayerNumPerPP : List Nat
deriving DecidableEq, Repr

structure CacheState where
  nbKvHeadsPerLayer : List Nat
  parallel : ParallelConfig
deriving DecidableEq, Repr

structure TargetRanksInfo where
  domainPPSize : Nat
  domainTPSize : Nat
  domainCPSize : Nat
  iRanks : List Nat
  dupHeadFactor : Nat
  peerDupHeadFactor : Nat
  peerLayerNumInDomainPP : List Nat
deriving DecidableEq, Repr

def isPowerOfTwo (n : Nat) : Bool := decide (0 < n ∧ n &&& (n - 1) = 0)

variable (config : ParallelConfig)

def ParallelConfig.tpSizePerDPGroup : Nat :=
  if config.enableAttentionDP then config.tensorParallelism / config.dpSize else config.tensorParallelism

def ParallelConfig.dpIndex : Nat := if config.enableAttentionDP then config.dpRank else 0

def ParallelConfig.cpRank (rank : Nat) : Nat := rank % config.contextParallelism

def ParallelConfig.tpRank (rank : Nat) : Nat :=
  rank % (config.tensorParallelism * config.contextParallelism) / config.contextParallelism

def ParallelConfig.ppRank (rank : Nat) : Nat :=
  rank / (config.tensorParallelism * config.contextParallelism)

-- The peer's stages that overlap the layers from start to stop, with the number they share, from ppRank on, whose
-- first layer is pre.
def targetPeerPPRanks (start stop : Nat) : Nat → Nat → List Nat → List (Nat × Nat)
  | _, _, [] => []
  | ppRank, pre, layers :: rest =>
    let later := targetPeerPPRanks start stop (ppRank + 1) (pre + layers) rest
    if start < pre + layers ∧ stop > pre then (ppRank, min (pre + layers) stop - max pre start) :: later else later

def targetRange (selfSize peerSize selfRank : Nat) : Nat × Nat :=
  if selfSize ≤ peerSize then (selfRank * (peerSize / selfSize), peerSize / selfSize) else (selfRank / (selfSize / peerSize), 1)

def headFactor (own other : Nat) : Except TransferError Nat :=
  if own > other then if other = 0 then .error .divisionByZero else .ok (own / other) else .ok 1

def check (condition : Bool) : Except TransferError Unit := if condition then .ok () else .error .check

def targetRanksInfoForDPImpl (peer self : ParallelConfig) (selfRank peerNbHeadsPerLayer selfNbHeadsPerLayer : Nat) :
    Except TransferError TargetRanksInfo := do
  let selfPPRank := self.ppRank selfRank
  let some selfLayers := self.attentionLayerNumPerPP[selfPPRank]? | throw .outOfRange
  if selfLayers = 0 then return ⟨0, 0, 0, [], 1, 1, []⟩
  check (decide (peer.attentionLayerNumPerPP.length = peer.pipelineParallelism))
  check (decide (self.attentionLayerNumPerPP.length = self.pipelineParallelism))
  let selfStartLayerId := (self.attentionLayerNumPerPP.take selfPPRank).sum
  let targets := targetPeerPPRanks selfStartLayerId (selfStartLayerId + selfLayers) 0 0 peer.attentionLayerNumPerPP
  let some front := targets.head? | throw .outOfRange
  check (decide ((targets.map Prod.snd).sum = selfLayers))
  check (isPowerOfTwo peer.tpSizePerDPGroup)
  check (isPowerOfTwo self.tpSizePerDPGroup)
  let tpRange := targetRange self.tpSizePerDPGroup peer.tpSizePerDPGroup (self.tpRank selfRank % self.tpSizePerDPGroup)
  check (isPowerOfTwo peer.contextParallelism)
  check (isPowerOfTwo self.contextParallelism)
  let cpRange := targetRange self.contextParallelism peer.contextParallelism (self.cpRank selfRank)
  let retRanks := (List.range' cpRange.1 cpRange.2).flatMap fun i =>
    (List.range' (tpRange.1 + peer.dpIndex * peer.tpSizePerDPGroup) tpRange.2).flatMap fun j =>
      (List.range' front.1 targets.length).map fun k =>
        k * peer.tensorParallelism * peer.contextParallelism + j * peer.contextParallelism + i
  let selfHeads := selfNbHeadsPerLayer * self.tpSizePerDPGroup
  let peerHeads := peerNbHeadsPerLayer * peer.tpSizePerDPGroup
  let dupHeadFactor ← headFactor selfHeads peerHeads
  let peerDupHeadFactor ← headFactor peerHeads selfHeads
  return ⟨targets.length, tpRange.2, cpRange.2, retRanks, dupHeadFactor, peerDupHeadFactor, targets.map Prod.snd⟩

def targetIRanks (peer self : CacheState) (selfRank : Nat) : Except TransferError TargetRanksInfo :=
  targetRanksInfoForDPImpl peer.parallel self.parallel selfRank (peer.nbKvHeadsPerLayer.headD 0) (self.nbKvHeadsPerLayer.headD 0)

def needSendCache (selfConfig destConfig : ParallelConfig) (selfIdx : Nat) (targetInfo : TargetRanksInfo) : Bool :=
  if targetInfo.dupHeadFactor ≤ 1 then true
  else
    let selfTpRank := selfConfig.tpRank selfIdx
    let selfTpRankInDpGroup :=
      if selfConfig.enableAttentionDP then selfTpRank % (selfConfig.tensorParallelism / selfConfig.dpSize) else selfTpRank
    destConfig.dpIndex % targetInfo.dupHeadFactor = selfTpRankInDpGroup % targetInfo.dupHeadFactor

def findConnection (counterPartRanks : List Nat) (rank : Nat) : Except TransferError Nat :=
  match counterPartRanks.idxOf? rank with
  | none => .error .check
  | some index => .ok index

def pickSendConnections (numConnections : Nat) (counterPartRanks : List Nat) (targetInfo : TargetRanksInfo) :
    Except TransferError (List Nat) := do
  check (decide (numConnections = counterPartRanks.length))
  targetInfo.iRanks.mapM (findConnection counterPartRanks)

def localRankIndices (selfDPRank : Nat) (targetInfo : TargetRanksInfo) : List Nat :=
  ((List.range targetInfo.domainTPSize).filter fun i =>
    i % targetInfo.peerDupHeadFactor = selfDPRank % targetInfo.peerDupHeadFactor).flatMap fun i =>
      (List.range targetInfo.domainPPSize).map fun j => i * targetInfo.domainPPSize + j

def connectionAt (indices : List Nat) (localIdx : Nat) : Except TransferError Nat :=
  match indices[localIdx]? with
  | none => .error .outOfRange
  | some index => .ok index

def pickRecvConnections (numConnections : Nat) (selfConfig : ParallelConfig) (counterPartRanks : List Nat)
    (targetInfo : TargetRanksInfo) : Except TransferError (List Nat × List Nat) := do
  if targetInfo.iRanks = [] then return ([], [])
  let baseIndices ← pickSendConnections numConnections counterPartRanks targetInfo
  if targetInfo.peerDupHeadFactor ≤ 1 then return (baseIndices, List.range baseIndices.length)
  let localIndices := localRankIndices selfConfig.dpIndex targetInfo
  let pickUpConnections ← localIndices.mapM (connectionAt baseIndices)
  return (pickUpConnections, localIndices)

namespace CacheFormatter

-- The connections over which a rank sends, and receives. Without need to send there are none.
def sendConnections (selfConfig destConfig : CacheState) (selfIdx : Nat) (counterPartRanks : List Nat) :
    Except TransferError (List Nat) := do
  let targetInfo ← targetIRanks destConfig selfConfig selfIdx
  if needSendCache selfConfig.parallel destConfig.parallel selfIdx targetInfo then
    pickSendConnections counterPartRanks.length counterPartRanks targetInfo
  else return []

def recvConnections (selfConfig destConfig : CacheState) (selfIdx : Nat) (counterPartRanks : List Nat) :
    Except TransferError (List Nat × List Nat) := do
  let targetInfo ← targetIRanks destConfig selfConfig selfIdx
  pickRecvConnections counterPartRanks.length selfConfig.parallel counterPartRanks targetInfo

end CacheFormatter
end TrtLlm.Transfer
