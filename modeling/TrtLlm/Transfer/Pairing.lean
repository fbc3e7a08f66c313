import TrtLlm.Transfer.Picks

set_option autoImplicit false

namespace TrtLlm.Transfer
open List CacheFormatter

def CacheState.heads (state : CacheState) : Nat := state.nbKvHeadsPerLayer.headD 0

def CacheState.Holds (state : CacheState) (kvHeads : Nat) : Prop :=
  state.heads * state.parallel.tpSizePerDPGroup = kvHeads ∨ state.heads = 1 ∧ kvHeads ∣ state.parallel.tpSizePerDPGroup

structure SameModel (context generation : CacheState) : Prop where
  contextValid : context.parallel.Valid
  generationValid : generation.parallel.Valid
  contextCp : context.parallel.contextParallelism = 1
  layers : context.parallel.attentionLayerNumPerPP.sum = generation.parallel.attentionLayerNumPerPP.sum
  heads : ∃ kvHeads > 0, context.Holds kvHeads ∧ generation.Holds kvHeads

variable (self peer : CacheState)

def Receives (parts : List Nat) (rank other : Nat) : Prop :=
  ∃ picked, CacheFormatter.recvConnections self peer rank parts = .ok picked ∧ ∃ index ∈ picked.1, parts[index]? = some other

def Sends (parts : List Nat) (rank other : Nat) : Prop :=
  ∃ picked, CacheFormatter.sendConnections self peer rank parts = .ok picked ∧ ∃ index ∈ picked, parts[index]? = some other

def Covers (rank : Nat) (parts : List Nat) : Prop :=
  ∀ info, targetIRanks peer self rank = .ok info → ∀ other ∈ info.iRanks, other ∈ parts

variable {context generation : CacheState}

theorem CacheState.Holds.positive {st : CacheState} {kvHeads : Nat} (held : st.Holds kvHeads) (some_heads : kvHeads > 0) :
    0 < st.heads := by
  rcases held with share | ⟨single, _⟩
  · by_contra none_held
    have zero : st.heads = 0 := by omega
    rw [zero, zero_mul] at share
    omega
  · omega

theorem CacheState.Holds.enough {st : CacheState} {kvHeads : Nat} (held : st.Holds kvHeads)
    (valid : st.parallel.Valid) : kvHeads ≤ st.heads * st.parallel.tpSizePerDPGroup := by
  rcases held with share | ⟨single, divides⟩
  · exact share.ge
  · rw [single, one_mul]
    exact Nat.le_of_dvd valid.group_pos divides

theorem SameModel.factor_divides (same : SameModel context generation)
    (several : 1 < factor (context.heads * context.parallel.tpSizePerDPGroup) (generation.heads * generation.parallel.tpSizePerDPGroup)) :
    generation.parallel.tpSizePerDPGroup ≤ context.parallel.tpSizePerDPGroup ∧
      factor (context.heads * context.parallel.tpSizePerDPGroup) (generation.heads * generation.parallel.tpSizePerDPGroup) ∣
        context.parallel.tpSizePerDPGroup / generation.parallel.tpSizePerDPGroup := by
  obtain ⟨kvHeads, some_heads, contextHeld, generationHeld⟩ := same.heads
  have enough := generationHeld.enough same.generationValid
  have more : context.heads * context.parallel.tpSizePerDPGroup > generation.heads * generation.parallel.tpSizePerDPGroup := by
    by_contra fewer
    rw [factor, if_neg fewer] at several
    omega
  rcases contextHeld with share | ⟨single, divides⟩
  · omega
  rw [factor, if_pos more]
  rw [single, one_mul] at more ⊢
  have pos := generationHeld.positive some_heads
  have larger : generation.parallel.tpSizePerDPGroup ≤ generation.heads * generation.parallel.tpSizePerDPGroup :=
    Nat.le_mul_of_pos_left _ pos
  refine ⟨by omega, ?_⟩
  rcases generationHeld with part | ⟨lone, _⟩
  · obtain ⟨times, whole⟩ := divides
    have group := same.generationValid.group_pos
    rw [part, whole, Nat.mul_div_cancel_left _ some_heads, ← part, mul_comm generation.heads, mul_assoc,
      Nat.mul_div_cancel_left _ group]
    exact Nat.dvd_mul_left _ _
  · rw [lone, one_mul]

def StagesMeet (context generation : CacheState) (contextStage generationStage : Nat) : Prop :=
  stageStart generation.parallel.attentionLayerNumPerPP generationStage <
      stageEnd context.parallel.attentionLayerNumPerPP contextStage ∧
    stageStart context.parallel.attentionLayerNumPerPP contextStage <
      stageEnd generation.parallel.attentionLayerNumPerPP generationStage

def replication (context generation : CacheState) : Nat :=
  factor (context.heads * context.parallel.tpSizePerDPGroup) (generation.heads * generation.parallel.tpSizePerDPGroup)

def PlacesMeet (context generation : CacheState) (contextPlace generationPlace : Nat) : Prop :=
  Meets generation.parallel.tpSizePerDPGroup context.parallel.tpSizePerDPGroup generationPlace contextPlace ∧
    (replication context generation ≤ 1 ∨
      contextPlace % replication context generation = generation.parallel.dpIndex % replication context generation)

theorem SameModel.local_place (same : SameModel context generation) (several : 1 < replication context generation)
    (place i : Nat) : ((targetRange generation.parallel.tpSizePerDPGroup context.parallel.tpSizePerDPGroup place).1 + i) %
      replication context generation = i % replication context generation := by
  obtain ⟨larger, divides⟩ := same.factor_divides several
  rw [targetRange, if_pos larger]
  obtain ⟨times, whole⟩ := divides
  rw [whole, ← replication, Nat.mul_left_comm, Nat.mul_add_mod]

theorem ParallelConfig.Valid.layers_at {cfg : ParallelConfig} (valid : cfg.Valid) {stage place cp : Nat}
    (within : cfg.Within stage place cp) : ∃ count, cfg.attentionLayerNumPerPP[stage]? = some count := by
  have inside := within.stage
  rw [← valid.stages] at inside
  exact ⟨_, getElem?_eq_getElem inside⟩

theorem target_range_one {size rank : Nat} (below : rank < size) : targetRange size 1 rank = (0, 1) := by
  rw [targetRange]
  split
  · have one : size = 1 := by omega
    subst one
    have zero : rank = 0 := by omega
    simp [zero]
  · rw [Nat.div_one, Nat.div_eq_of_lt below]

theorem need_send_iff {self : ParallelConfig} (peer : ParallelConfig) (valid : self.Valid) {stage place cp : Nat} (within : self.Within stage place cp)
    (info : TargetRanksInfo) : needSendCache self peer (self.rankAt stage place cp) info = true ↔
      info.dupHeadFactor ≤ 1 ∨ place % info.dupHeadFactor = peer.dpIndex % info.dupHeadFactor := by
  have place_eq : (if self.enableAttentionDP then
      self.tpRank (self.rankAt stage place cp) % (self.tensorParallelism / self.dpSize)
      else self.tpRank (self.rankAt stage place cp)) = place := by
    have grouped := valid.tp_rank_in_group within
    cases enabled : self.enableAttentionDP with
    | true => simpa [ParallelConfig.tpSizePerDPGroup, enabled] using grouped
    | false => simp [valid.tp_rank within, ParallelConfig.dpIndex, enabled]
  simp only [needSendCache, place_eq]
  split
  · simp [*]
  · simp [*, eq_comm]

theorem target_ranks_cases {self peer : CacheState} {stage place cp rank : Nat} (valid : self.parallel.Valid) (peerValid : peer.parallel.Valid)
    (within : self.parallel.Within stage place cp) (at_ : self.parallel.rankAt stage place cp = rank)
    (layers : peer.parallel.attentionLayerNumPerPP.sum = self.parallel.attentionLayerNumPerPP.sum)
    (heads : ∃ kvHeads > 0, peer.Holds kvHeads ∧ self.Holds kvHeads) :
    self.parallel.attentionLayerNumPerPP[stage]? = some 0 ∧ targetIRanks peer self rank = .ok ⟨0, 0, 0, [], 1, 1, []⟩ ∨
      self.parallel.attentionLayerNumPerPP[stage]? ≠ some 0 ∧ ∃ info, targetIRanks peer self rank = .ok info ∧
        TargetSpec peer.parallel self.parallel peer.heads self.heads stage place cp info := by
  subst at_
  obtain ⟨kvHeads, some_heads, peerHeld, held⟩ := heads
  obtain ⟨count, here⟩ := valid.layers_at within
  by_cases none_here : count = 0
  · subst none_here
    exact .inl ⟨here, target_ranks_empty valid within _ _ here⟩
  · refine .inr ⟨fun zero => none_here (Option.some.inj (here.symm.trans zero)), ?_⟩
    exact target_ranks_full valid within _ _ peerValid here none_here layers (peerHeld.positive some_heads) (held.positive some_heads)

section Pairs
variable (same : SameModel context generation) {contextStage contextPlace contextCp generationStage generationPlace generationCp : Nat}
  (contextWithin : context.parallel.Within contextStage contextPlace contextCp)
  (generationWithin : generation.parallel.Within generationStage generationPlace generationCp)
  {sender receiver : Nat} (sent : context.parallel.rankAt contextStage contextPlace contextCp = sender)
  (received : generation.parallel.rankAt generationStage generationPlace generationCp = receiver)

include same contextWithin generationWithin sent

theorem SameModel.received_ranks {parts : List Nat} (covers : Covers generation context receiver parts) {info : TargetRanksInfo}
    (found : targetIRanks context generation receiver = .ok info) (spec : TargetSpec context.parallel generation.parallel
      context.heads generation.heads generationStage generationPlace generationCp info) :
    ∃ picked ranks, recvConnections generation context receiver parts = .ok picked ∧ Names parts picked.1 ranks ∧
      (sender ∈ ranks ↔
        StagesMeet context generation contextStage generationStage ∧ PlacesMeet context generation contextPlace generationPlace) := by
  have shape := spec.iRanks
  rw [same.contextCp, target_range_one generationWithin.cp, ← spec.domainTP] at shape
  simp only [range'_one, flatMap_cons, flatMap_nil, append_nil] at shape
  obtain ⟨picked, ranks, receive, names, listed⟩ :=
    pick_recv_names parts generation.parallel (covers info found) spec.domainPP shape
  refine ⟨picked, ranks, ?_, names, ?_⟩
  · simp only [recvConnections, found]
    exact receive
  have matched := mem_target_range same.generationValid.group_power same.contextValid.group_power generationWithin.place
  rw [listed, spec.peerDup, ← replication]
  have cpZero : contextCp = 0 := by
    have below := contextWithin.cp
    rw [same.contextCp] at below
    omega
  subst cpZero
  constructor
  · rintro ⟨i, inRange, charge, k, mem, named⟩
    have inside := (matched (_ + i)).mp (mem_range'_1.mpr ⟨Nat.le_add_right _ _, by rw [spec.domainTP] at inRange; omega⟩)
    have stageMember := (mem_overlapping _ _).mp mem
    have within : context.parallel.Within k ((targetRange generation.parallel.tpSizePerDPGroup
        context.parallel.tpSizePerDPGroup generationPlace).1 + i) 0 :=
      ⟨by rw [← same.contextValid.stages]; exact stageMember.1, inside.1, contextWithin.cp⟩
    obtain ⟨rfl, rfl⟩ := same.contextValid.rank_inj within contextWithin (named.trans sent.symm)
    refine ⟨⟨stageMember.2.1, stageMember.2.2⟩, inside.2, ?_⟩
    by_cases single : replication context generation ≤ 1
    · exact .inl single
    · rw [same.local_place (by omega)]
      exact charge
  · rintro ⟨stages, places, charge⟩
    obtain ⟨above, below⟩ := mem_range'_1.mp ((matched contextPlace).mpr ⟨contextWithin.place, places⟩)
    obtain ⟨i, rfl⟩ := Nat.exists_eq_add_of_le above
    refine ⟨i, by rw [spec.domainTP]; omega, ?_, contextStage, ?_, sent⟩
    · by_cases single : replication context generation ≤ 1
      · exact .inl single
      · rw [same.local_place (by omega)] at charge
        exact charge
    · exact (mem_overlapping _ _).mpr ⟨by rw [same.contextValid.stages]; exact contextWithin.stage, stages.1, stages.2⟩

include received

theorem SameModel.receives_iff (parts : List Nat) (covers : Covers generation context receiver parts) :
    Receives generation context parts receiver sender ↔ generation.parallel.attentionLayerNumPerPP[generationStage]? ≠ some 0 ∧
        StagesMeet context generation contextStage generationStage ∧ PlacesMeet context generation contextPlace generationPlace := by
  rcases target_ranks_cases same.generationValid same.contextValid generationWithin received same.layers same.heads with
    ⟨here, found⟩ | ⟨nonempty, info, found, spec⟩
  · simp only [here, ne_eq, not_true_eq_false, false_and, iff_false]
    rintro ⟨picked, run, idx, mem, _⟩
    simp only [recvConnections, found] at run
    cases run
    cases mem
  obtain ⟨picked, ranks, run, names, listed⟩ := same.received_ranks contextWithin generationWithin sent covers found spec
  rw [← listed, ← names.mem_iff]
  constructor
  · rintro ⟨others, again, mem⟩
    rw [run] at again
    cases again
    exact ⟨nonempty, mem⟩
  · rintro ⟨_, mem⟩
    exact ⟨picked, run, mem⟩

omit sent in
theorem SameModel.targets_iff {info : TargetRanksInfo}
    (spec : TargetSpec generation.parallel context.parallel generation.heads context.heads contextStage contextPlace contextCp info) :
    receiver ∈ info.iRanks ↔ StagesMeet context generation contextStage generationStage ∧
        Meets generation.parallel.tpSizePerDPGroup context.parallel.tpSizePerDPGroup generationPlace contextPlace := by
  have places := mem_target_range same.contextValid.group_power same.generationValid.group_power contextWithin.place
  have cps := mem_target_range same.contextValid.cp_power same.generationValid.cp_power contextWithin.cp
  rw [spec.iRanks]
  simp only [mem_flatMap, mem_map]
  constructor
  · rintro ⟨i, cpMember, j, placeMember, k, stageMember, named⟩
    have stage := (mem_overlapping _ _).mp stageMember
    have place := (places j).mp placeMember
    have within : generation.parallel.Within k j i :=
      ⟨by rw [← same.generationValid.stages]; exact stage.1, place.1, ((cps i).mp cpMember).1⟩
    obtain ⟨rfl, rfl⟩ := same.generationValid.rank_inj within generationWithin (named.trans received.symm)
    exact ⟨⟨stage.2.2, stage.2.1⟩, (meets_symm _ _ _ _).mp place.2⟩
  · rintro ⟨stages, meets⟩
    refine ⟨generationCp, (cps _).mpr ⟨generationWithin.cp, ?_⟩, generationPlace,
      (places _).mpr ⟨generationWithin.place, (meets_symm _ _ _ _).mp meets⟩, generationStage, ?_, received⟩
    · have zero : contextCp = 0 := by
        have below := contextWithin.cp
        rw [same.contextCp] at below
        omega
      have least : min 1 generation.parallel.contextParallelism = 1 := min_eq_left (Nat.zero_lt_of_lt generationWithin.cp)
      rw [Meets, zero, same.contextCp, least, Nat.div_one, Nat.div_one, Nat.div_eq_of_lt generationWithin.cp]
    · exact (mem_overlapping _ _).mpr ⟨by rw [same.generationValid.stages]; exact generationWithin.stage, stages.2, stages.1⟩

theorem SameModel.sends_iff (parts : List Nat) (covers : Covers context generation sender parts) :
    Sends context generation parts sender receiver ↔ context.parallel.attentionLayerNumPerPP[contextStage]? ≠ some 0 ∧
        StagesMeet context generation contextStage generationStage ∧ PlacesMeet context generation contextPlace generationPlace := by
  obtain ⟨kvHeads, some_heads, held⟩ := same.heads
  rcases target_ranks_cases same.contextValid same.generationValid contextWithin sent same.layers.symm ⟨kvHeads, some_heads, held.symm⟩ with
    ⟨here, found⟩ | ⟨nonempty, info, found, spec⟩
  · simp only [here, ne_eq, not_true_eq_false, false_and, iff_false]
    rintro ⟨picked, run, idx, mem, _⟩
    simp only [sendConnections, found, needSendCache, pickSendConnections, check, decide_true, if_true] at run
    cases run
    cases mem
  obtain ⟨indices, send, names⟩ := pick_send_names (covers info found)
  have targets := same.targets_iff contextWithin generationWithin received spec
  have charge := need_send_iff generation.parallel same.contextValid contextWithin info
  rw [spec.dup, ← replication, sent] at charge
  cases needed : needSendCache context.parallel generation.parallel sender info with
  | false =>
    have idle : sendConnections context generation sender parts = .ok [] := by
      simp only [sendConnections, found, bind, Except.bind, needed]
      rfl
    constructor
    · rintro ⟨picked, again, idx, mem, _⟩
      rw [idle] at again
      cases again
      cases mem
    · rintro ⟨_, _, _, agrees⟩
      rw [← charge, needed] at agrees
      cases agrees
  | true =>
    have busy : sendConnections context generation sender parts = .ok indices := by
      simp only [sendConnections, found, bind, Except.bind, needed, if_true, send]
    constructor
    · rintro ⟨picked, again, mem⟩
      rw [busy] at again
      cases again
      obtain ⟨stages, meets⟩ := targets.mp ((names.mem_iff _).mp mem)
      exact ⟨nonempty, stages, meets, charge.mp needed⟩
    · rintro ⟨_, stages, meets, _⟩
      exact ⟨indices, busy, (names.mem_iff _).mpr (targets.mpr ⟨stages, meets⟩)⟩

end Pairs

def InnerEmpty (layers others : List Nat) : Prop :=
  ∃ stage other, layers[stage]? = some 0 ∧ other < others.length ∧
    stageStart others other < stageStart layers stage ∧ stageStart layers stage < stageEnd others other

theorem SameModel.places_exist (same : SameModel context generation) :
    ∃ contextPlace < context.parallel.tpSizePerDPGroup, PlacesMeet context generation contextPlace 0 := by
  have pos := same.contextValid.group_pos
  by_cases single : replication context generation ≤ 1
  · refine ⟨0, pos, ?_, .inl single⟩
    rw [Meets, Nat.zero_div, Nat.zero_div]
  obtain ⟨larger, divides⟩ := same.factor_divides (by rw [← replication]; omega)
  have group := same.generationValid.group_pos
  have inside : generation.parallel.dpIndex % replication context generation <
      context.parallel.tpSizePerDPGroup / generation.parallel.tpSizePerDPGroup :=
    lt_of_lt_of_le (Nat.mod_lt _ (by omega)) (Nat.le_of_dvd (Nat.div_pos larger group) divides)
  refine ⟨generation.parallel.dpIndex % replication context generation,
    lt_of_lt_of_le inside (Nat.div_le_self _ _), ?_, .inr (Nat.mod_mod _ _)⟩
  rw [Meets, min_eq_left larger, Nat.zero_div, Nat.div_eq_of_lt inside]

theorem stage_filled {layers : List Nat} {stage boundary : Nat} (after : stageStart layers stage < boundary)
    (before : boundary < stageEnd layers stage) : layers[stage]? ≠ some 0 := by
  intro empty
  have ends := stage_end empty
  omega

theorem transfer_pairs_iff (context generation : CacheState) (same : SameModel context generation)
    (contextParts generationParts : Nat → List Nat)
    (sending : ∀ rank, context.parallel.InGroup rank → Covers context generation rank (contextParts rank))
    (receiving : ∀ rank, generation.parallel.InGroup rank → Covers generation context rank (generationParts rank)) :
    (∀ sender receiver, context.parallel.InGroup sender → generation.parallel.InGroup receiver →
      (Receives generation context (generationParts receiver) receiver sender ↔
        Sends context generation (contextParts sender) sender receiver)) ↔
      ¬InnerEmpty context.parallel.attentionLayerNumPerPP generation.parallel.attentionLayerNumPerPP ∧
        ¬InnerEmpty generation.parallel.attentionLayerNumPerPP context.parallel.attentionLayerNumPerPP := by
  constructor
  · intro agree
    obtain ⟨place, inPlace, places⟩ := same.places_exist
    obtain ⟨exponent, contextCp⟩ := same.contextValid.cp_power
    obtain ⟨other, generationCp⟩ := same.generationValid.cp_power
    have pair : ∀ contextStage < context.parallel.attentionLayerNumPerPP.length,
        ∀ generationStage < generation.parallel.attentionLayerNumPerPP.length,
          StagesMeet context generation contextStage generationStage →
            (generation.parallel.attentionLayerNumPerPP[generationStage]? ≠ some 0 ↔
              context.parallel.attentionLayerNumPerPP[contextStage]? ≠ some 0) := by
      intro contextStage inContext generationStage inGeneration meet
      have contextWithin : context.parallel.Within contextStage place 0 :=
        ⟨same.contextValid.stages ▸ inContext, inPlace, by rw [contextCp]; exact Nat.two_pow_pos _⟩
      have generationWithin : generation.parallel.Within generationStage 0 0 :=
        ⟨same.generationValid.stages ▸ inGeneration, same.generationValid.group_pos, by
          rw [generationCp]; exact Nat.two_pow_pos _⟩
      have inGroup : context.parallel.InGroup (context.parallel.rankAt contextStage place 0) := ⟨_, _, _, contextWithin, rfl⟩
      have otherGroup : generation.parallel.InGroup (generation.parallel.rankAt generationStage 0 0) :=
        ⟨_, _, _, generationWithin, rfl⟩
      have exchange := agree _ _ inGroup otherGroup
      rw [same.receives_iff contextWithin generationWithin rfl rfl _ (receiving _ otherGroup),
        same.sends_iff contextWithin generationWithin rfl rfl _ (sending _ inGroup)] at exchange
      exact ⟨fun filled => (exchange.mp ⟨filled, meet, places⟩).1, fun filled => (exchange.mpr ⟨filled, meet, places⟩).1⟩
    constructor
    · rintro ⟨stage, around, empty, inside, after, before⟩
      have ends := stage_end empty
      have known := (List.getElem?_eq_some_iff.mp empty).1
      exact (pair stage known around inside ⟨by omega, before⟩).mp (stage_filled after before) empty
    · rintro ⟨stage, around, empty, inside, after, before⟩
      have ends := stage_end empty
      have known := (List.getElem?_eq_some_iff.mp empty).1
      exact (pair around inside stage known ⟨before, by omega⟩).mpr (stage_filled after before) empty
  · rintro ⟨contextFilled, generationFilled⟩ sender receiver
    rintro ⟨contextStage, contextPlace, contextCp, contextWithin, rfl⟩
      ⟨generationStage, generationPlace, generationCp, generationWithin, rfl⟩
    rw [same.receives_iff contextWithin generationWithin rfl rfl _ (receiving _ ⟨_, _, _, generationWithin, rfl⟩),
      same.sends_iff contextWithin generationWithin rfl rfl _ (sending _ ⟨_, _, _, contextWithin, rfl⟩)]
    have inContext : contextStage < context.parallel.attentionLayerNumPerPP.length :=
      same.contextValid.stages ▸ contextWithin.stage
    have inGeneration : generationStage < generation.parallel.attentionLayerNumPerPP.length :=
      same.generationValid.stages ▸ generationWithin.stage
    constructor
    · rintro ⟨_, meet, places⟩
      refine ⟨fun empty => ?_, meet, places⟩
      have ends := stage_end empty
      exact contextFilled ⟨contextStage, generationStage, empty, inGeneration, Nat.lt_of_lt_of_eq meet.1 ends, meet.2⟩
    · rintro ⟨_, meet, places⟩
      refine ⟨fun empty => ?_, meet, places⟩
      have ends := stage_end empty
      exact generationFilled ⟨generationStage, contextStage, empty, inContext, Nat.lt_of_lt_of_eq meet.2 ends, meet.1⟩

def counterparts (rank : Nat) : List Nat :=
  match targetIRanks peer self rank with
  | .ok info => info.iRanks
  | .error _ => []

theorem counterparts_cover (rank : Nat) : Covers self peer rank (counterparts self peer rank) := by
  intro info found other mem
  rw [counterparts, found]
  exact mem

def replicatedContext : CacheState := ⟨[1], ⟨4, 2, 1, false, 0, 1, [1, 1]⟩⟩

def groupedGeneration : CacheState := ⟨[1], ⟨4, 1, 2, true, 1, 2, [2]⟩⟩

theorem replicated_same_model : SameModel replicatedContext groupedGeneration :=
  ⟨⟨rfl, ⟨2, rfl⟩, ⟨0, rfl⟩, 1, rfl, by decide⟩, ⟨rfl, ⟨1, rfl⟩, ⟨1, rfl⟩, 2, rfl, by decide⟩, rfl, rfl,
    2, by decide, .inr ⟨rfl, by decide⟩, .inl rfl⟩

theorem replicated_heads_paired : SameModel replicatedContext groupedGeneration ∧
    ∀ sender receiver, replicatedContext.parallel.InGroup sender → groupedGeneration.parallel.InGroup receiver →
      (Receives groupedGeneration replicatedContext (counterparts groupedGeneration replicatedContext receiver) receiver sender ↔
        Sends replicatedContext groupedGeneration (counterparts replicatedContext groupedGeneration sender) sender receiver) := by
  refine ⟨replicated_same_model, ?_⟩
  refine (transfer_pairs_iff replicatedContext groupedGeneration replicated_same_model
    (counterparts replicatedContext groupedGeneration) (counterparts groupedGeneration replicatedContext)
    (fun rank _ => counterparts_cover _ _ rank) (fun rank _ => counterparts_cover _ _ rank)).mpr ⟨?_, ?_⟩
  · rintro ⟨stage, other, empty, _⟩
    exact absurd (mem_of_getElem? empty) (by decide)
  · rintro ⟨stage, other, empty, _⟩
    exact absurd (mem_of_getElem? empty) (by decide)

def hollowContext : CacheState := ⟨[1], ⟨1, 3, 1, false, 0, 1, [1, 0, 1]⟩⟩

def singleGeneration : CacheState := ⟨[1], ⟨1, 1, 1, false, 0, 1, [2]⟩⟩

-- The generation rank waits for the middle stage, which sends to nobody.
theorem hollow_stage_unpaired :
    SameModel hollowContext singleGeneration ∧ hollowContext.parallel.InGroup 1 ∧ singleGeneration.parallel.InGroup 0 ∧
    Receives singleGeneration hollowContext (counterparts singleGeneration hollowContext 0) 0 1 ∧
    ¬Sends hollowContext singleGeneration (counterparts hollowContext singleGeneration 1) 1 0 := by
  refine ⟨?_, ⟨1, 0, 0, ⟨by decide, by decide, by decide⟩, rfl⟩, ⟨0, 0, 0, ⟨by decide, by decide, by decide⟩, rfl⟩, ?_, ?_⟩
  · exact ⟨⟨rfl, ⟨0, rfl⟩, ⟨0, rfl⟩, 1, rfl, by decide⟩, ⟨rfl, ⟨0, rfl⟩, ⟨0, rfl⟩, 1, rfl, by decide⟩, rfl, rfl, 1, by decide,
      .inl rfl, .inl rfl⟩
  · exact ⟨([0, 1, 2], [0, 1, 2]), by decide, 1, by decide, by decide⟩
  rintro ⟨picked, run, idx, mem, _⟩
  have idle : sendConnections hollowContext singleGeneration 1 (counterparts hollowContext singleGeneration 1) =
      .ok [] := by decide
  cases run
  cases mem

end TrtLlm.Transfer
