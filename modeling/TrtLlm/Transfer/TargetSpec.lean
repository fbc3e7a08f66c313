import TrtLlm.Transfer.TargetRanks
import TrtLlm.Lib.Runs

set_option autoImplicit false

namespace TrtLlm.Transfer
open List ParallelConfig

def stageStart (layers : List Nat) (stage : Nat) : Nat := (layers.take stage).sum

def stageEnd (layers : List Nat) (stage : Nat) : Nat := (layers.take (stage + 1)).sum

theorem stage_end {layers : List Nat} {stage count : Nat} (here : layers[stage]? = some count) :
    stageEnd layers stage = stageStart layers stage + count := by
  rw [stageEnd, take_add_one, here]
  simp [stageStart]

theorem stage_end_le (layers : List Nat) (stage : Nat) : stageEnd layers stage ≤ layers.sum := by
  conv_rhs => rw [← take_append_drop (stage + 1) layers, sum_append]
  exact Nat.le_add_right _ _

section Scan
variable (start stop : Nat)
variable (layers : List Nat) (ppRank pre : Nat)

theorem scan_past (past : stop ≤ pre) : targetPeerPPRanks start stop ppRank pre layers = [] := by
  induction layers generalizing ppRank pre with
  | nil => rfl
  | cons count rest ih =>
    have later := ih (ppRank + 1) (pre + count) (by omega)
    simp only [targetPeerPPRanks, later]
    rw [if_neg (by omega)]

theorem scan_run (begun : start < pre) : (targetPeerPPRanks start stop ppRank pre layers).map Prod.fst =
      range' ppRank (targetPeerPPRanks start stop ppRank pre layers).length := by
  induction layers generalizing ppRank pre with
  | nil => rfl
  | cons count rest ih =>
    by_cases inside : stop > pre
    · have later := ih (ppRank + 1) (pre + count) (by omega)
      simp only [targetPeerPPRanks]
      rw [if_pos (by omega), map_cons, length_cons, range'_succ, later]
    · rw [scan_past start stop _ _ _ (by omega)]
      rfl

theorem scan_contiguous : ∃ front, (targetPeerPPRanks start stop ppRank pre layers).map Prod.fst =
      range' front (targetPeerPPRanks start stop ppRank pre layers).length := by
  induction layers generalizing ppRank pre with
  | nil => exact ⟨0, rfl⟩
  | cons count rest ih =>
    by_cases overlap : start < pre + count ∧ stop > pre
    · refine ⟨ppRank, ?_⟩
      have later := scan_run start stop rest (ppRank + 1) (pre + count) overlap.1
      simp only [targetPeerPPRanks]
      rw [if_pos overlap, map_cons, length_cons, range'_succ, later]
    · obtain ⟨front, later⟩ := ih (ppRank + 1) (pre + count)
      refine ⟨front, ?_⟩
      simp only [targetPeerPPRanks]
      rw [if_neg overlap, later]

theorem mem_scan (ppRank pre stage : Nat) : stage ∈ (targetPeerPPRanks start stop ppRank pre layers).map Prod.fst ↔
      ppRank ≤ stage ∧ stage - ppRank < layers.length ∧ start < pre + stageEnd layers (stage - ppRank) ∧
        pre + stageStart layers (stage - ppRank) < stop := by
  induction layers generalizing ppRank pre with
  | nil => simp [targetPeerPPRanks]
  | cons count rest ih =>
    have later := ih (ppRank + 1) (pre + count)
    have split : stage ∈ (targetPeerPPRanks start stop ppRank pre (count :: rest)).map Prod.fst ↔
        (stage = ppRank ∧ start < pre + count ∧ stop > pre) ∨
          stage ∈ (targetPeerPPRanks start stop (ppRank + 1) (pre + count) rest).map Prod.fst := by
      simp only [targetPeerPPRanks]
      split <;> simp_all
    rw [split, later]
    by_cases here : stage = ppRank
    · subst here
      simp [stageEnd, stageStart]
    by_cases behind : ppRank < stage
    · obtain ⟨further, rfl⟩ : ∃ further, stage = ppRank + 1 + further := ⟨stage - (ppRank + 1), by omega⟩
      have near : ppRank + 1 + further - (ppRank + 1) = further := by omega
      have far : ppRank + 1 + further - ppRank = further + 1 := by omega
      simp only [near, far, stageEnd, stageStart, take_succ_cons, sum_cons, length_cons]
      omega
    · omega

theorem scan_total (ordered : start ≤ stop) :
    ((targetPeerPPRanks start stop ppRank pre layers).map Prod.snd).sum = min (pre + layers.sum) stop - max pre start := by
  induction layers generalizing ppRank pre with
  | nil =>
    simp only [targetPeerPPRanks, map_nil, sum_nil]
    omega
  | cons count rest ih =>
    have later := ih (ppRank + 1) (pre + count)
    simp only [targetPeerPPRanks, sum_cons]
    split
    · simp only [map_cons, sum_cons, later]
      omega
    · omega

end Scan

structure ParallelConfig.Valid (config : ParallelConfig) : Prop where
  stages : config.attentionLayerNumPerPP.length = config.pipelineParallelism
  group_power : ∃ exponent, config.tpSizePerDPGroup = 2 ^ exponent
  cp_power : ∃ exponent, config.contextParallelism = 2 ^ exponent
  grouped : ∃ groups, config.tensorParallelism = groups * config.tpSizePerDPGroup ∧ config.dpIndex < groups

def ParallelConfig.rankAt (config : ParallelConfig) (stage place cp : Nat) : Nat :=
  stage * config.tensorParallelism * config.contextParallelism +
    (place + config.dpIndex * config.tpSizePerDPGroup) * config.contextParallelism + cp

structure ParallelConfig.Within (config : ParallelConfig) (stage place cp : Nat) : Prop where
  stage : stage < config.pipelineParallelism
  place : place < config.tpSizePerDPGroup
  cp : cp < config.contextParallelism

def ParallelConfig.InGroup (config : ParallelConfig) (rank : Nat) : Prop :=
  ∃ stage place cp, config.Within stage place cp ∧ rank = config.rankAt stage place cp

variable {config : ParallelConfig}

theorem ParallelConfig.Valid.group_pos (valid : config.Valid) : 0 < config.tpSizePerDPGroup := by
  obtain ⟨exponent, size⟩ := valid.group_power
  rw [size]
  exact Nat.two_pow_pos _

theorem ParallelConfig.Valid.place_lt (valid : config.Valid) {place : Nat} (inside : place < config.tpSizePerDPGroup) :
    place + config.dpIndex * config.tpSizePerDPGroup < config.tensorParallelism := by
  obtain ⟨groups, size, below⟩ := valid.grouped
  have next : (config.dpIndex + 1) * config.tpSizePerDPGroup ≤ groups * config.tpSizePerDPGroup := Nat.mul_le_mul_right _ below
  rw [add_mul] at next
  omega

theorem ParallelConfig.rank_eq (config : ParallelConfig) (stage place cp : Nat) : config.rankAt stage place cp =
    cp + config.contextParallelism * ((place + config.dpIndex * config.tpSizePerDPGroup) + config.tensorParallelism * stage) := by
  rw [rankAt]
  ring

section Coordinates
variable {stage place cp : Nat} (within : config.Within stage place cp)

include within

theorem ParallelConfig.Within.cp_rank : config.cpRank (config.rankAt stage place cp) = cp := by
  rw [cpRank, config.rank_eq, Nat.add_mul_mod_self_left, Nat.mod_eq_of_lt within.cp]

theorem ParallelConfig.Within.rank_div : config.rankAt stage place cp / config.contextParallelism =
    (place + config.dpIndex * config.tpSizePerDPGroup) + config.tensorParallelism * stage := by
  have pos : 0 < config.contextParallelism := Nat.zero_lt_of_lt within.cp
  rw [config.rank_eq, Nat.add_mul_div_left _ _ pos, Nat.div_eq_of_lt within.cp, zero_add]

variable (valid : config.Valid)

include valid

theorem ParallelConfig.Valid.tp_rank :
    config.tpRank (config.rankAt stage place cp) = place + config.dpIndex * config.tpSizePerDPGroup := by
  rw [tpRank, mul_comm, Nat.mod_mul_right_div_self, within.rank_div, Nat.add_mul_mod_self_left,
    Nat.mod_eq_of_lt (valid.place_lt within.place)]

theorem ParallelConfig.Valid.tp_rank_in_group :
    config.tpRank (config.rankAt stage place cp) % config.tpSizePerDPGroup = place := by
  rw [valid.tp_rank within, Nat.add_mul_mod_self_right, Nat.mod_eq_of_lt within.place]

theorem ParallelConfig.Valid.pp_rank : config.ppRank (config.rankAt stage place cp) = stage := by
  have inside := valid.place_lt within.place
  rw [ppRank, mul_comm, ← Nat.div_div_eq_div_mul, within.rank_div,
    Nat.add_mul_div_left _ _ (Nat.zero_lt_of_lt inside), Nat.div_eq_of_lt inside, zero_add]

theorem ParallelConfig.Valid.rank_inj {stage' place' cp' : Nat} (other : config.Within stage' place' cp')
    (same : config.rankAt stage place cp = config.rankAt stage' place' cp') : stage = stage' ∧ place = place' := by
  constructor
  · rw [← valid.pp_rank within, same, valid.pp_rank other]
  · rw [← valid.tp_rank_in_group within, same, valid.tp_rank_in_group other]

end Coordinates

theorem is_power_of_two_pow (exponent : Nat) : isPowerOfTwo (2 ^ exponent) = true := by
  have pos : 0 < 2 ^ exponent := Nat.two_pow_pos exponent
  simp [isPowerOfTwo, pos, Nat.and_two_pow_sub_one_eq_mod]

def factor (own other : Nat) : Nat := if own > other then own / other else 1

theorem head_factor (own other : Nat) (pos : 0 < other) : headFactor own other = .ok (factor own other) := by
  simp only [headFactor, factor]
  split
  · rw [if_neg (by omega)]
  · rfl

variable {peer self : ParallelConfig}

def overlapping (peer self : ParallelConfig) (stage : Nat) : List Nat :=
  (targetPeerPPRanks (stageStart self.attentionLayerNumPerPP stage) (stageEnd self.attentionLayerNumPerPP stage) 0 0
    peer.attentionLayerNumPerPP).map Prod.fst

theorem mem_overlapping (stage other : Nat) : other ∈ overlapping peer self stage ↔ other < peer.attentionLayerNumPerPP.length ∧
      stageStart self.attentionLayerNumPerPP stage < stageEnd peer.attentionLayerNumPerPP other ∧
      stageStart peer.attentionLayerNumPerPP other < stageEnd self.attentionLayerNumPerPP stage := by
  rw [overlapping, mem_scan]
  simp

structure TargetSpec (peer own : ParallelConfig) (peerHeads selfHeads stage place cp : Nat) (info : TargetRanksInfo) : Prop where
  domainPP : info.domainPPSize = (overlapping peer own stage).length
  domainTP : info.domainTPSize = (targetRange own.tpSizePerDPGroup peer.tpSizePerDPGroup place).2
  iRanks : info.iRanks = (List.range' (targetRange own.contextParallelism peer.contextParallelism cp).1
      (targetRange own.contextParallelism peer.contextParallelism cp).2).flatMap fun i =>
        (List.range' (targetRange own.tpSizePerDPGroup peer.tpSizePerDPGroup place).1
          (targetRange own.tpSizePerDPGroup peer.tpSizePerDPGroup place).2).flatMap fun j =>
            (overlapping peer own stage).map fun k => peer.rankAt k j i
  dup : info.dupHeadFactor = factor (selfHeads * own.tpSizePerDPGroup) (peerHeads * peer.tpSizePerDPGroup)
  peerDup : info.peerDupHeadFactor = factor (peerHeads * peer.tpSizePerDPGroup) (selfHeads * own.tpSizePerDPGroup)

section Spec
variable (selfValid : self.Valid) {stage place cp : Nat} (within : self.Within stage place cp) (peerHeads selfHeads : Nat)

include selfValid within

theorem target_ranks_empty (empty : self.attentionLayerNumPerPP[stage]? = some 0) :
    targetRanksInfoForDPImpl peer self (self.rankAt stage place cp) peerHeads selfHeads = .ok ⟨0, 0, 0, [], 1, 1, []⟩ := by
  simp [targetRanksInfoForDPImpl, selfValid.pp_rank within, empty]
  rfl

theorem target_ranks_full (peerValid : peer.Valid) {count : Nat} (here : self.attentionLayerNumPerPP[stage]? = some count)
    (some_layers : count ≠ 0) (total : peer.attentionLayerNumPerPP.sum = self.attentionLayerNumPerPP.sum)
    (peerPositive : 0 < peerHeads) (selfPositive : 0 < selfHeads) :
    ∃ info, targetRanksInfoForDPImpl peer self (self.rankAt stage place cp) peerHeads selfHeads = .ok info ∧
      TargetSpec peer self peerHeads selfHeads stage place cp info := by
  obtain ⟨targets, scanned⟩ : ∃ targets, targetPeerPPRanks (stageStart self.attentionLayerNumPerPP stage)
      (stageStart self.attentionLayerNumPerPP stage + count) 0 0 peer.attentionLayerNumPerPP = targets := ⟨_, rfl⟩
  have ends := stage_end here
  have sum : (targets.map Prod.snd).sum = count := by
    have inside := stage_end_le self.attentionLayerNumPerPP stage
    rw [← scanned, scan_total _ _ _ _ _ (Nat.le_add_right _ _)]
    omega
  obtain ⟨front, rest, listed⟩ : ∃ front rest, targets = front :: rest := by
    cases targets with
    | nil => exact absurd sum.symm some_layers
    | cons front rest => exact ⟨front, rest, rfl⟩
  subst listed
  have stages : overlapping peer self stage = range' front.1 (front :: rest).length := by
    obtain ⟨first, contiguous⟩ := scan_contiguous (stageStart self.attentionLayerNumPerPP stage)
      (stageStart self.attentionLayerNumPerPP stage + count) peer.attentionLayerNumPerPP 0 0
    rw [scanned] at contiguous
    have same : front.1 = first := by
      exact (cons.inj contiguous).1
    rw [overlapping, ends, scanned, contiguous, same]
  obtain ⟨peerGroup, peerGroupSize⟩ := peerValid.group_power
  obtain ⟨selfGroup, selfGroupSize⟩ := selfValid.group_power
  obtain ⟨peerCp, peerCpSize⟩ := peerValid.cp_power
  obtain ⟨selfCp, selfCpSize⟩ := selfValid.cp_power
  have checks : isPowerOfTwo peer.tpSizePerDPGroup = true ∧ isPowerOfTwo self.tpSizePerDPGroup = true ∧
      isPowerOfTwo peer.contextParallelism = true ∧ isPowerOfTwo self.contextParallelism = true := by
    rw [peerGroupSize, selfGroupSize, peerCpSize, selfCpSize]
    exact ⟨is_power_of_two_pow _, is_power_of_two_pow _, is_power_of_two_pow _, is_power_of_two_pow _⟩
  have selfFactor := head_factor (selfHeads * self.tpSizePerDPGroup) (peerHeads * peer.tpSizePerDPGroup)
    (Nat.mul_pos peerPositive peerValid.group_pos)
  have peerFactor := head_factor (peerHeads * peer.tpSizePerDPGroup) (selfHeads * self.tpSizePerDPGroup)
    (Nat.mul_pos selfPositive selfValid.group_pos)
  simp only [stageStart] at scanned
  simp only [targetRanksInfoForDPImpl, selfValid.pp_rank within, here, some_layers, if_false, scanned, check, peerValid.stages,
    selfValid.stages, sum, checks, decide_true, if_true, selfValid.tp_rank_in_group within, within.cp_rank, selfFactor,
    peerFactor, head?_cons]
  refine ⟨_, rfl, ?_, rfl, ?_, rfl, rfl⟩
  · rw [stages, length_range']
  simp only [stages]
  refine flatMap_congr fun i _ => ?_
  rw [add_comm, ← map_add_range', flatMap_map]
  refine flatMap_congr fun j _ => ?_
  refine map_congr_left fun k _ => ?_
  rw [rankAt, add_comm j]

end Spec

end TrtLlm.Transfer
