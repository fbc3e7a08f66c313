import TrtLlm.Transfer.TargetSpec

set_option autoImplicit false

namespace TrtLlm.Transfer
open List

def Meets (size other rank otherRank : Nat) : Prop := rank / (size / min size other) = otherRank / (other / min size other)

theorem meets_symm (size other rank otherRank : Nat) : Meets size other rank otherRank ↔ Meets other size otherRank rank := by
  rw [Meets, Meets, Nat.min_comm]
  exact eq_comm

theorem power_ratio {exponent other : Nat} (ordered : 2 ^ exponent ≤ 2 ^ other) :
    2 ^ other = 2 ^ exponent * (2 ^ other / 2 ^ exponent) ∧ 0 < 2 ^ other / 2 ^ exponent := by
  have pos : 0 < 2 ^ exponent := Nat.two_pow_pos exponent
  have divides : 2 ^ exponent ∣ 2 ^ other := Nat.pow_dvd_pow 2 ((Nat.pow_le_pow_iff_right (by decide)).mp ordered)
  exact ⟨(Nat.mul_div_cancel' divides).symm, Nat.div_pos ordered pos⟩

theorem mem_target_range {size other rank : Nat} (power : ∃ exponent, size = 2 ^ exponent)
    (otherPower : ∃ exponent, other = 2 ^ exponent) (below : rank < size) (otherRank : Nat) :
    otherRank ∈ range' (targetRange size other rank).1 (targetRange size other rank).2 ↔
      otherRank < other ∧ Meets size other rank otherRank := by
  obtain ⟨exponent, rfl⟩ := power
  obtain ⟨otherExponent, rfl⟩ := otherPower
  rw [mem_range'_1, targetRange, Meets]
  have pos : 0 < 2 ^ exponent := Nat.two_pow_pos exponent
  have otherPositive : 0 < 2 ^ otherExponent := Nat.two_pow_pos otherExponent
  by_cases ordered : 2 ^ exponent ≤ 2 ^ otherExponent
  · obtain ⟨whole, ratio⟩ := power_ratio ordered
    rw [if_pos ordered, min_eq_left ordered, Nat.div_self pos, Nat.div_one]
    generalize 2 ^ otherExponent / 2 ^ exponent = share at whole ratio ⊢
    have last : (rank + 1) * share ≤ 2 ^ exponent * share := Nat.mul_le_mul_right _ below
    rw [add_mul] at last
    rw [eq_comm, Nat.div_eq_iff ratio]
    omega
  · have reversed : 2 ^ otherExponent ≤ 2 ^ exponent := by omega
    obtain ⟨whole, ratio⟩ := power_ratio reversed
    rw [if_neg ordered, min_eq_right reversed, Nat.div_self otherPositive, Nat.div_one]
    have inside : rank / (2 ^ exponent / 2 ^ otherExponent) < 2 ^ otherExponent := by
      rw [Nat.div_lt_iff_lt_mul ratio, ← whole]
      exact below
    omega

def Names (parts indices ranks : List Nat) : Prop := List.Forall₂ (fun index rank => parts[index]? = some rank) indices ranks

theorem Names.mem_iff {parts indices ranks : List Nat} (names : Names parts indices ranks) (rank : Nat) :
    (∃ idx ∈ indices, parts[idx]? = some rank) ↔ rank ∈ ranks := by
  induction names with
  | nil => simp
  | @cons idx own indices ranks head _ ih =>
    rw [mem_cons, ← ih]
    constructor
    · rintro ⟨other, mem, found⟩
      rcases mem_cons.mp mem with rfl | later
      · exact .inl (Option.some.inj (found.symm.trans head))
      · exact .inr ⟨other, later, found⟩
    · rintro (rfl | ⟨other, later, found⟩)
      · exact ⟨idx, mem_cons_self, head⟩
      · exact ⟨other, mem_cons_of_mem _ later, found⟩

theorem find_connection {parts : List Nat} {rank : Nat} (listed : rank ∈ parts) :
    ∃ idx, findConnection parts rank = .ok idx ∧ parts[idx]? = some rank := by
  cases found : parts.idxOf? rank with
  | none => exact absurd listed (idxOf?_eq_none_iff.mp found)
  | some idx =>
    obtain ⟨below, same, _⟩ := idxOf?_eq_some_iff.mp found
    exact ⟨idx, by rw [findConnection, found], List.getElem?_eq_some_iff.mpr ⟨below, same⟩⟩

theorem pick_send_names {parts : List Nat} {info : TargetRanksInfo} (covers : ∀ rank ∈ info.iRanks, rank ∈ parts) :
    ∃ indices, pickSendConnections parts.length parts info = .ok indices ∧ Names parts indices info.iRanks := by
  have each : ∀ ranks : List Nat, (∀ rank ∈ ranks, rank ∈ parts) →
      ∃ indices, ranks.mapM (findConnection parts) = .ok indices ∧ Names parts indices ranks := by
    intro ranks listed
    induction ranks with
    | nil => exact ⟨[], rfl, .nil⟩
    | cons rank rest ih =>
      obtain ⟨idx, found, named⟩ := find_connection (listed rank mem_cons_self)
      obtain ⟨indices, run, names⟩ := ih (forall_mem_cons.mp listed).2
      refine ⟨idx :: indices, ?_, .cons named names⟩
      rw [mapM_cons, found, run]
      rfl
  obtain ⟨indices, run, names⟩ := each info.iRanks covers
  refine ⟨indices, ?_, names⟩
  simp only [pickSendConnections, check, decide_true, if_true, run]
  rfl

theorem block_getElem {α β : Type} {xs : List α} {blockOf : α → List β} {width : Nat}
    (even : ∀ x ∈ xs, (blockOf x).length = width) (i q : Nat) (below : q < width) :
    (xs.flatMap blockOf)[i * width + q]? = (xs[i]?).bind fun x => (blockOf x)[q]? := by
  induction xs generalizing i with
  | nil => simp
  | cons x rest ih =>
    have own := even x mem_cons_self
    have later := ih (forall_mem_cons.mp even).2
    rw [flatMap_cons]
    cases i with
    | zero => rw [zero_mul, zero_add, getElem?_append_left (by omega)]; rfl
    | succ i =>
      rw [getElem?_append_right (by rw [add_mul]; omega), own]
      have shift : (i + 1) * width + q - width = i * width + q := by rw [add_mul]; omega
      rw [shift, later i]
      rfl

theorem Names.at {parts indices ranks : List Nat} (names : Names parts indices ranks) {place rank : Nat}
    (here : ranks[place]? = some rank) : ∃ idx, indices[place]? = some idx ∧ parts[idx]? = some rank := by
  induction names generalizing place with
  | nil => simp at here
  | cons head _ ih =>
    cases place with
    | zero =>
      cases here
      exact ⟨_, rfl, head⟩
    | succ place => exact ih here

theorem connections_named {parts base ranks : List Nat} (names : Names parts base ranks) {locals : List Nat}
    (inside : ∀ place ∈ locals, ∃ rank, ranks[place]? = some rank) : ∃ picked, locals.mapM (connectionAt base) = .ok picked ∧
      Names parts picked (locals.filterMap fun place => ranks[place]?) := by
  induction locals with
  | nil => exact ⟨[], rfl, .nil⟩
  | cons place rest ih =>
    obtain ⟨rank, here⟩ := inside place mem_cons_self
    obtain ⟨idx, found, named⟩ := names.at here
    obtain ⟨picked, run, later⟩ := ih (forall_mem_cons.mp inside).2
    refine ⟨idx :: picked, ?_, ?_⟩
    · rw [mapM_cons, connectionAt, found, run]
      rfl
    · rw [filterMap_cons, here]
      exact .cons named later

section Receiving
variable {info : TargetRanksInfo} {stages : List Nat} {first : Nat} {rankOf : Nat → Nat → Nat}

section
variable (width : info.domainPPSize = stages.length)
    (shape : info.iRanks = (List.range' first info.domainTPSize).flatMap fun j => stages.map fun k => rankOf k j)

include width shape

theorem mem_local_ranks (dpRank rank : Nat) : rank ∈ (localRankIndices dpRank info).filterMap (fun place => info.iRanks[place]?) ↔
      ∃ i < info.domainTPSize, i % info.peerDupHeadFactor = dpRank % info.peerDupHeadFactor ∧
        ∃ k ∈ stages, rankOf k (first + i) = rank := by
  have entry : ∀ i q, i < info.domainTPSize → q < stages.length →
      info.iRanks[i * stages.length + q]? = (stages[q]?).map fun k => rankOf k (first + i) := by
    intro i q inRange inStages
    rw [shape, block_getElem (by simp) i q inStages, getElem?_range' inRange]
    simp
  simp only [mem_filterMap, localRankIndices, mem_flatMap, mem_filter, mem_range, decide_eq_true_eq, mem_map, width]
  constructor
  · rintro ⟨place, ⟨i, ⟨inRange, agrees⟩, q, inStages, rfl⟩, here⟩
    rw [entry i q inRange inStages, Option.map_eq_some_iff] at here
    obtain ⟨k, found, same⟩ := here
    exact ⟨i, inRange, agrees, k, mem_of_getElem? found, same⟩
  · rintro ⟨i, inRange, agrees, k, mem, same⟩
    obtain ⟨q, inStages, found⟩ := mem_iff_getElem.mp mem
    refine ⟨_, ⟨i, ⟨inRange, agrees⟩, q, inStages, rfl⟩, ?_⟩
    rw [entry i q inRange inStages, getElem?_eq_some_iff.mpr ⟨inStages, found⟩, Option.map_some, same]

theorem local_ranks_inside (dpRank : Nat) : ∀ place ∈ localRankIndices dpRank info, ∃ rank, info.iRanks[place]? = some rank := by
  intro place mem
  simp only [localRankIndices, mem_flatMap, mem_filter, mem_range, mem_map, width] at mem
  obtain ⟨i, ⟨inRange, _⟩, q, inStages, rfl⟩ := mem
  rw [shape, block_getElem (by simp) i q inStages, getElem?_range' inRange]
  simp [inStages]

end

theorem pick_recv_names (parts : List Nat) (cfg : ParallelConfig) (covers : ∀ rank ∈ info.iRanks, rank ∈ parts)
    (width : info.domainPPSize = stages.length)
    (shape : info.iRanks = (range' first info.domainTPSize).flatMap fun j => stages.map fun k => rankOf k j) :
    ∃ picked ranks, pickRecvConnections parts.length cfg parts info = .ok picked ∧ Names parts picked.1 ranks ∧
      ∀ rank, rank ∈ ranks ↔ ∃ i < info.domainTPSize, (info.peerDupHeadFactor ≤ 1 ∨
        i % info.peerDupHeadFactor = cfg.dpIndex % info.peerDupHeadFactor) ∧ ∃ k ∈ stages, rankOf k (first + i) = rank := by
  have listed : ∀ rank, rank ∈ info.iRanks ↔ ∃ i < info.domainTPSize, ∃ k ∈ stages, rankOf k (first + i) = rank := by
    intro rank
    rw [shape]
    simp only [mem_flatMap, mem_range'_1, mem_map]
    constructor
    · rintro ⟨j, ⟨above, below⟩, k, mem, same⟩
      refine ⟨j - first, by omega, k, mem, ?_⟩
      rw [Nat.add_sub_cancel' above]
      exact same
    · rintro ⟨i, inRange, k, mem, same⟩
      exact ⟨first + i, ⟨by omega, by omega⟩, k, mem, same⟩
  by_cases empty : info.iRanks = []
  · refine ⟨([], []), [], by simp [pickRecvConnections, empty]; rfl, .nil, ?_⟩
    intro rank
    have none_listed := listed rank
    simp only [empty, not_mem_nil, false_iff] at none_listed ⊢
    rintro ⟨i, inRange, _, named⟩
    exact none_listed ⟨i, inRange, named⟩
  obtain ⟨base, send, names⟩ := pick_send_names covers
  by_cases single : info.peerDupHeadFactor ≤ 1
  · refine ⟨(base, range base.length), info.iRanks, ?_, names, ?_⟩
    · simp only [pickRecvConnections, empty, if_false, send, single, if_true]
      rfl
    · intro rank
      simp [listed, single]
  obtain ⟨picked, run, named⟩ := connections_named names
    (local_ranks_inside width shape cfg.dpIndex)
  refine ⟨(picked, localRankIndices cfg.dpIndex info), _, ?_, named, ?_⟩
  · simp only [pickRecvConnections, empty, if_false, send, single, bind, Except.bind, run]
    rfl
  · intro rank
    rw [mem_local_ranks width shape]
    simp [single]

end Receiving

end TrtLlm.Transfer
