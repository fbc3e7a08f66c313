import TrtLlm.Lib.Runs
import TrtLlm.ChunkPolicy

set_option autoImplicit false

namespace TrtLlm.Batch
open List TrtLlm.Lib LlmRequest

theorem reuse_adjusted_mono (reusable remaining : Nat) {small large : Nat} (le : small ≤ large) :
    reuseAdjustedCompute small reusable remaining ≤ reuseAdjustedCompute large reusable remaining := by
  unfold reuseAdjustedCompute
  split_ifs <;> omega

theorem exceeds_eq_false {limit : Option Nat} {amount : Nat} :
    exceeds limit amount = false ↔ ∀ bound ∈ limit, amount ≤ bound := by
  cases limit <;> simp [exceeds]

namespace LlmRequest
variable (req : LlmRequest)

include req

@[simp] theorem set_chunk_policy_compute (size amount : Nat) :
    (req.setContextChunkSize size).policyCompute amount = req.policyCompute amount := rfl

theorem policy_compute_le (amount : Nat) : req.policyCompute amount ≤ amount := by
  unfold policyCompute reuseAdjustedCompute
  split_ifs <;> omega

theorem policy_compute_mono {small large : Nat} (le : small ≤ large) : req.policyCompute small ≤ req.policyCompute large :=
  reuse_adjusted_mono _ _ le

theorem set_chunk_compute (size : Nat) :
    (req.setContextChunkSize size).chunkCompute = req.policyCompute (min size req.getContextRemainingLength) := rfl

theorem set_chunk_compute_le (size : Nat) : (req.setContextChunkSize size).chunkCompute ≤ req.policyCompute size :=
  req.policy_compute_mono (min_le_left _ _)

end LlmRequest

def Rechunked (given result : LlmRequest) : Prop := ∃ size, result = given.setContextChunkSize size

theorem rechunked_refl (req : LlmRequest) : Rechunked req req := ⟨_, req.set_own_chunk.symm⟩

theorem rechunked_trans {a b c : LlmRequest} (first : Rechunked a b) (second : Rechunked b c) : Rechunked a c := by
  obtain ⟨_, rfl⟩ := first
  obtain ⟨size, rfl⟩ := second
  exact ⟨size, rfl⟩

def Shrunk (given result : LlmRequest) : Prop :=
  ∃ size, size ≤ given.contextChunkSize ∧ result = given.setContextChunkSize size

theorem shrunk_refl (req : LlmRequest) : Shrunk req req := ⟨_, le_rfl, req.set_own_chunk.symm⟩

theorem shrunk_rechunked {a b : LlmRequest} (shrunk : Shrunk a b) : Rechunked a b := by
  obtain ⟨size, _, same⟩ := shrunk
  exact ⟨size, same⟩

theorem shrunk_compute {a b : LlmRequest} (shrunk : Shrunk a b) : b.chunkCompute ≤ a.chunkCompute := by
  obtain ⟨size, le, rfl⟩ := shrunk
  exact le_trans (a.set_chunk_compute_le size) (a.policy_compute_mono le)

@[simp] theorem total_compute_nil : totalCompute [] = 0 := rfl

@[simp] theorem total_compute_cons (req : LlmRequest) (rest : List LlmRequest) :
    totalCompute (req :: rest) = req.chunkCompute + totalCompute rest := rfl

@[simp] theorem total_compute_append (a b : List LlmRequest) : totalCompute (a ++ b) = totalCompute a + totalCompute b := by
  simp [totalCompute]

variable {given result : List LlmRequest}

theorem total_compute_shrunk (shrunk : Forall₂ Shrunk given result) : totalCompute result ≤ totalCompute given := by
  induction shrunk with
  | nil => exact le_rfl
  | cons head _ ih =>
    have le := shrunk_compute head
    simp only [total_compute_cons]
    omega

theorem total_compute_fresh (contexts : List LlmRequest) (fresh : ∀ req ∈ contexts, req.contextChunkSize = 0) :
    totalCompute contexts = 0 := by
  induction contexts with
  | nil => rfl
  | cons req rest ih =>
    have none : req.contextChunkSize = 0 := fresh req mem_cons_self
    have cost : req.chunkCompute ≤ req.contextChunkSize := req.policy_compute_le _
    have others := ih (forall_mem_cons.mp fresh).2
    rw [total_compute_cons]
    omega

structure WithinBudget (capacity maxContextLength : Option Nat) (given result : List LlmRequest) : Prop where
  rechunked : List.Forall₂ Rechunked given result
  total : ∀ limit ∈ capacity, totalCompute result ≤ limit
  each : ∀ limit ∈ maxContextLength, ∀ req ∈ result, req.chunkCompute ≤ limit

theorem within_budget_shrunk {capacity maxContextLength : Option Nat} {chunked : List LlmRequest}
    (budget : WithinBudget capacity maxContextLength given chunked) (shrunk : Forall₂ Shrunk chunked result) :
    WithinBudget capacity maxContextLength given result where
  rechunked := forall2_comp budget.rechunked shrunk fun _ _ _ first second =>
    rechunked_trans first (shrunk_rechunked second)
  total limit bound := le_trans (total_compute_shrunk shrunk) (budget.total limit bound)
  each limit bound req member := by
    obtain ⟨src, listed, step⟩ := forall2_source shrunk member
    exact le_trans (shrunk_compute step) (budget.each limit bound src listed)

section EqualProgress
variable (capacity : Option Nat) (unit : Nat) (maxContextLength : Option Nat)

structure TurnSpec (capacity maxContextLength : Option Nat) (numCtxTokens : Nat) (req : LlmRequest)
    (turn : LlmRequest × Nat × Nat) : Prop where
  rechunked : Rechunked req turn.1
  grows : turn.1.contextChunkSize = req.contextChunkSize + turn.2.2
  charged : turn.1.chunkCompute = req.chunkCompute + turn.2.1
  total : ∀ limit ∈ capacity, numCtxTokens ≤ limit → numCtxTokens + turn.2.1 ≤ limit
  each : ∀ limit ∈ maxContextLength, req.contextChunkSize ≤ limit → turn.1.contextChunkSize ≤ limit

variable (numCtxTokens : Nat) (contexts : List LlmRequest)

theorem equal_progress_turn (req : LlmRequest) : TurnSpec capacity maxContextLength numCtxTokens req
      (equalProgressTurn capacity unit maxContextLength numCtxTokens req) := by
  have fits := req.chunk_le_remaining
  have grown : req.contextChunkSize ≤ min (req.contextChunkSize + unit) req.getContextRemainingLength :=
    Nat.le_min.mpr ⟨Nat.le_add_right _ _, fits⟩
  unfold equalProgressTurn
  dsimp only
  split
  · rw [set_chunk_set_chunk, set_own_chunk]
    exact ⟨rechunked_refl req, rfl, rfl, fun _ _ le => le, fun _ _ le => le⟩
  rename_i accepted
  rw [Bool.or_eq_true, not_or, Bool.not_eq_true, Bool.not_eq_true, exceeds_eq_false, exceeds_eq_false] at accepted
  have costs := req.policy_compute_mono grown
  refine ⟨⟨_, rfl⟩, ?_, ?_, fun limit bound _ => accepted.1 limit bound, fun limit bound _ => accepted.2 limit bound⟩
  · simp only [set_chunk_size]
    omega
  · simp only [chunkCompute, set_chunk_policy_compute, set_chunk_size]
    omega

structure PassSpec (capacity maxContextLength : Option Nat) (numCtxTokens : Nat) (contexts : List LlmRequest)
    (pass : List LlmRequest × Nat × Nat) : Prop where
  rechunked : List.Forall₂ Rechunked contexts pass.1
  charged : pass.2.1 + totalCompute contexts = numCtxTokens + totalCompute pass.1
  total : ∀ limit ∈ capacity, numCtxTokens ≤ limit → pass.2.1 ≤ limit
  each : ∀ limit ∈ maxContextLength, (∀ req ∈ contexts, req.contextChunkSize ≤ limit) →
    ∀ req ∈ pass.1, req.contextChunkSize ≤ limit

theorem equal_progress_pass : PassSpec capacity maxContextLength numCtxTokens contexts
      (equalProgressPass capacity unit maxContextLength numCtxTokens contexts) := by
  induction contexts generalizing numCtxTokens with
  | nil => exact ⟨.nil, rfl, fun _ _ le => le, fun _ _ all => all⟩
  | cons req rest ih =>
    have turn := equal_progress_turn capacity unit maxContextLength numCtxTokens req
    have tail := ih (numCtxTokens + (equalProgressTurn capacity unit maxContextLength numCtxTokens req).2.1)
    refine ⟨.cons turn.rechunked tail.rechunked, ?_, ?_, ?_⟩
    · have charged := turn.charged
      have rest := tail.charged
      simp only [equalProgressPass, total_compute_cons]
      omega
    · exact fun limit bound le => tail.total limit bound (turn.total limit bound le)
    · intro limit bound all other mem
      rcases mem_cons.mp mem with rfl | mem
      · exact turn.each limit bound (all req mem_cons_self)
      · exact tail.each limit bound (forall_mem_cons.mp all).2 other mem

theorem equal_progress_loop (fuel numCtxTokens single : Nat) (contexts result : List LlmRequest)
    (charged : numCtxTokens = totalCompute contexts) (total : ∀ limit ∈ capacity, numCtxTokens ≤ limit)
    (each : ∀ limit ∈ maxContextLength, ∀ req ∈ contexts, req.contextChunkSize ≤ limit)
    (run : equalProgressLoop capacity unit maxContextLength fuel numCtxTokens single contexts = some result) :
    WithinBudget capacity maxContextLength contexts result := by
  induction fuel generalizing numCtxTokens single contexts with
  | zero => cases run
  | succ fuel ih =>
    unfold equalProgressLoop at run
    split at run
    · have pass := equal_progress_pass capacity unit maxContextLength numCtxTokens contexts
      have later := ih _ _ _ (by have paid := pass.charged; omega)
        (fun limit bound => pass.total limit bound (total limit bound))
        (fun limit bound => pass.each limit bound (each limit bound)) run
      exact ⟨forall2_comp pass.rechunked later.rechunked fun _ _ _ => rechunked_trans, later.total, later.each⟩
    · cases run
      refine ⟨forall₂_same.mpr fun req _ => rechunked_refl req, ?_, ?_⟩
      · exact fun limit bound => charged ▸ total limit bound
      · exact fun limit bound req mem =>
          le_trans (req.policy_compute_le _) (each limit bound req mem)

def totalChunk (contexts : List LlmRequest) : Nat := (contexts.map LlmRequest.contextChunkSize).sum

theorem total_chunk_le : totalChunk contexts ≤ totalRemaining contexts := by
  induction contexts with
  | nil => exact le_rfl
  | cons req rest ih =>
    have fits := req.chunk_le_remaining
    simp only [totalChunk, totalRemaining, map_cons, sum_cons] at ih ⊢
    unfold getContextRemainingLength at ih ⊢
    omega

theorem equal_progress_pass_grows : let pass := equalProgressPass capacity unit maxContextLength numCtxTokens contexts
    totalChunk pass.1 = totalChunk contexts + pass.2.2 ∧ totalRemaining pass.1 = totalRemaining contexts := by
  induction contexts generalizing numCtxTokens with
  | nil => exact ⟨rfl, rfl⟩
  | cons req rest ih =>
    have turn := equal_progress_turn capacity unit maxContextLength numCtxTokens req
    obtain ⟨grown, kept⟩ := ih (numCtxTokens + (equalProgressTurn capacity unit maxContextLength numCtxTokens req).2.1)
    obtain ⟨size, same⟩ := turn.rechunked
    have grows := turn.grows
    have remaining : (equalProgressTurn capacity unit maxContextLength numCtxTokens req).1.getContextRemainingLength =
        req.getContextRemainingLength := by rw [same, set_chunk_remaining]
    simp only [totalChunk, totalRemaining, equalProgressPass, map_cons, sum_cons] at grown kept ⊢
    omega

theorem equal_progress_loop_ends (fuel numCtxTokens single : Nat) (contexts : List LlmRequest)
    (enough : totalRemaining contexts - totalChunk contexts + 2 ≤ fuel) :
    (equalProgressLoop capacity unit maxContextLength fuel numCtxTokens single contexts).isSome := by
  induction fuel generalizing numCtxTokens single contexts with
  | zero => omega
  | succ fuel ih =>
    unfold equalProgressLoop
    split
    · obtain ⟨grown, kept⟩ := equal_progress_pass_grows capacity unit maxContextLength numCtxTokens contexts
      have room := total_chunk_le (equalProgressPass capacity unit maxContextLength numCtxTokens contexts).1
      by_cases idle : (equalProgressPass capacity unit maxContextLength numCtxTokens contexts).2.2 = 0
      · obtain ⟨fuel, rfl⟩ : ∃ more, fuel = more + 1 := ⟨fuel - 1, by omega⟩
        unfold equalProgressLoop
        simp [idle]
      · exact ih _ _ _ (by omega)
    · rfl

theorem equal_progress_total : ∃ result, equalProgressChunks capacity unit maxContextLength contexts = .ok result := by
  have ends := equal_progress_loop_ends capacity unit maxContextLength (totalRemaining contexts + 2) 0 1 contexts (by omega)
  obtain ⟨result, run⟩ := Option.isSome_iff_exists.mp ends
  exact ⟨result, by rw [equalProgressChunks, run]⟩

theorem equal_progress_chunks {contexts result : List LlmRequest} (fresh : ∀ req ∈ contexts, req.contextChunkSize = 0)
    (run : equalProgressChunks capacity unit maxContextLength contexts = .ok result) :
    WithinBudget capacity maxContextLength contexts result := by
  unfold equalProgressChunks at run
  split at run
  · rename_i loop
    cases run
    exact equal_progress_loop capacity unit maxContextLength _ 0 1 contexts result (total_compute_fresh contexts fresh).symm
      (fun _ _ => Nat.zero_le _) (fun _ _ req mem => by rw [fresh req mem]; exact Nat.zero_le _) loop
  · cases run

end EqualProgress

section FirstComeFirstServed
variable (unit : Nat) (maxContextLength : Option Nat)
variable (capacity : Option Nat) (req : LlmRequest)

theorem trim_to_capacity_le : ∀ limit ∈ capacity, req.policyCompute (trimToCapacity capacity req) ≤ limit := by
  intro limit bound
  cases bound
  unfold trimToCapacity
  dsimp only
  split_ifs with excess
  · exact req.policy_compute_le limit
  · exact Nat.le_of_not_lt excess

theorem trim_to_length_le (size : Nat) : trimToLength maxContextLength req size ≤ size ∧
      ∀ limit ∈ maxContextLength, req.policyCompute (trimToLength maxContextLength req size) ≤ limit := by
  cases maxContextLength with
  | none => exact ⟨le_rfl, fun _ bound => nomatch bound⟩
  | some limit =>
    have cost := req.policy_compute_le size
    unfold trimToLength
    dsimp only
    split_ifs with excess
    · refine ⟨by omega, fun _ bound => ?_⟩
      cases bound
      exact le_trans (req.policy_compute_le _) (min_le_left _ _)
    · refine ⟨le_rfl, fun _ bound => ?_⟩
      cases bound
      exact Nat.le_of_not_lt excess

theorem first_come_size_le : firstComeSize unit maxContextLength capacity req ≤
      trimToLength maxContextLength req (trimToCapacity capacity req) := by
  unfold firstComeSize
  dsimp only
  split_ifs
  · exact Nat.div_mul_le_self _ _
  · exact le_rfl

theorem first_come_compute : (∀ limit ∈ capacity, req.policyCompute (firstComeSize unit maxContextLength capacity req) ≤ limit) ∧
      (∀ limit ∈ maxContextLength, req.policyCompute (firstComeSize unit maxContextLength capacity req) ≤ limit) := by
  have floored := first_come_size_le unit maxContextLength capacity req
  obtain ⟨shorter, within⟩ := trim_to_length_le maxContextLength req (trimToCapacity capacity req)
  refine ⟨fun limit bound => ?_, fun limit bound => ?_⟩
  · exact le_trans (req.policy_compute_mono (le_trans floored shorter))
      (trim_to_capacity_le capacity req limit bound)
  · exact le_trans (req.policy_compute_mono floored) (within limit bound)

theorem first_come_chunks (contexts : List LlmRequest) :
    WithinBudget capacity maxContextLength contexts (firstComeChunks unit maxContextLength capacity contexts) := by
  induction contexts generalizing capacity with
  | nil => exact ⟨.nil, fun _ _ => Nat.zero_le _, fun _ _ _ mem => nomatch mem⟩
  | cons req rest ih =>
    obtain ⟨paid, within⟩ := first_come_compute unit maxContextLength capacity req
    have head := req.set_chunk_compute_le (firstComeSize unit maxContextLength capacity req)
    have tail := ih (capacity.map (· - req.policyCompute (firstComeSize unit maxContextLength capacity req)))
    refine ⟨.cons ⟨_, rfl⟩ tail.rechunked, fun limit bound => ?_, fun limit bound other mem => ?_⟩
    · have left := paid limit bound
      have others := tail.total _ (Option.mem_map_of_mem _ bound)
      simp only [firstComeChunks, total_compute_cons]
      omega
    · rcases mem_cons.mp mem with rfl | mem
      · exact le_trans head (within limit bound)
      · exact tail.each limit bound other mem

end FirstComeFirstServed

section ForceChunk
variable (capacity : Option Nat) (unit : Nat)

theorem forced_chunks (totalTokens : Nat) (contexts : List LlmRequest) (start : ∀ limit ∈ capacity, totalTokens ≤ limit) :
    Forall₂ Rechunked contexts (forcedChunks capacity unit totalTokens contexts) ∧
      (∀ limit ∈ capacity, totalTokens + totalCompute (forcedChunks capacity unit totalTokens contexts) ≤ limit) ∧
      ∀ req ∈ forcedChunks capacity unit totalTokens contexts, req.contextChunkSize ≤ unit := by
  induction contexts generalizing totalTokens with
  | nil => exact ⟨.nil, start, fun _ mem => nomatch mem⟩
  | cons req rest ih =>
    unfold forcedChunks
    dsimp only
    split_ifs with excess
    · obtain ⟨same, total, each⟩ := ih totalTokens start
      have free : (req.setContextChunkSize 0).chunkCompute = 0 :=
        Nat.le_zero.mp (le_trans (req.set_chunk_compute_le 0) (req.policy_compute_le 0))
      refine ⟨.cons ⟨0, rfl⟩ same, fun limit bound => ?_, fun other mem => ?_⟩
      · rw [total_compute_cons, free, Nat.zero_add]
        exact total limit bound
      · rcases mem_cons.mp mem with rfl | mem
        · simp
        · exact each other mem
    · rw [Bool.not_eq_true, exceeds_eq_false] at excess
      have size : (req.setContextChunkSize (min req.getContextRemainingLength unit)).contextChunkSize =
          min req.getContextRemainingLength unit := by simp
      rw [size]
      obtain ⟨same, total, each⟩ := ih _ excess
      have cost := req.set_chunk_compute_le (min req.getContextRemainingLength unit)
      have face := req.policy_compute_le (min req.getContextRemainingLength unit)
      refine ⟨.cons ⟨_, rfl⟩ same, fun limit bound => ?_, fun other mem => ?_⟩
      · have rest := total limit bound
        rw [total_compute_cons]
        omega
      · rcases mem_cons.mp mem with rfl | mem
        · rw [size]
          exact min_le_right _ _
        · exact each other mem

theorem force_chunk_sizes {maxContextLength : Option Nat} {contexts result : List LlmRequest}
    (run : forceChunkSizes capacity unit maxContextLength contexts = .ok result) :
    WithinBudget capacity maxContextLength contexts result := by
  obtain ⟨same, total, each⟩ := forced_chunks capacity unit 0 contexts fun _ _ => Nat.zero_le _
  have wide : ∀ limit ∈ maxContextLength, unit ≤ limit := by
    intro limit bound
    cases bound
    simp only [forceChunkSizes] at run
    split_ifs at run with narrow
    exact Nat.le_of_not_lt narrow
  have made : result = forcedChunks capacity unit 0 contexts := by
    unfold forceChunkSizes at run
    split at run
    · split_ifs at run
      exact (Except.ok.inj run).symm
    · exact (Except.ok.inj run).symm
  subst made
  refine ⟨same, fun limit bound => ?_, fun limit bound req mem => ?_⟩
  · have all := total limit bound
    omega
  · exact le_trans (req.policy_compute_le _) (le_trans (each req mem) (wide limit bound))

end ForceChunk

section SnapshotAlignment
variable (interval visualTokensPerBlock lastTokensPerBlock : Nat) (snapshotsInEngine : Bool)

theorem last_below_limit (points : List Nat) {start limit : Nat} (low : start ≤ limit) :
    (points.takeWhile (· ≤ limit)).getLastD start ≤ limit := by
  cases found : (points.takeWhile (· ≤ limit)).getLast? with
  | none => simpa [getLastD_eq_getLast?, found] using low
  | some last =>
    have mem := mem_of_getLast? found
    simpa [getLastD_eq_getLast?, found] using mem_takeWhile_imp mem

theorem engine_boundary_le (req : LlmRequest) {reached : Nat}
    (run : engineBoundary interval visualTokensPerBlock req = .ok reached) : reached ≤ req.snapshotLimit := by
  unfold engineBoundary at run
  split_ifs at run with visual whole
  · obtain ⟨boundaries, _, rfl⟩ := except_mapped_ok.mp run
    exact last_below_limit boundaries (Nat.le_add_right _ _)
  · cases run
    exact le_of_eq whole.symm
  · cases run
    exact Nat.div_mul_le_self _ _

theorem engine_aligned_le (req : LlmRequest) (size : Nat)
    (run : engineAlignedSize interval visualTokensPerBlock lastTokensPerBlock req = .ok size) : size ≤ req.contextChunkSize := by
  obtain ⟨reached, found, rfl⟩ := except_mapped_ok.mp run
  have bounded := engine_boundary_le interval visualTokensPerBlock req found
  have limit : req.snapshotLimit ≤ req.snapshotStart + req.contextChunkSize := Nat.add_le_add_left (min_le_left _ _) _
  split_ifs <;> omega

theorem step_aligned_le (req : LlmRequest) (size : Nat)
    (run : stepAlignedSize interval visualTokensPerBlock lastTokensPerBlock req = .ok size) : size ≤ req.contextChunkSize := by
  obtain ⟨next, _, rfl⟩ := except_mapped_ok.mp run
  split_ifs <;> omega

theorem align_request_shrunk (req result : LlmRequest)
    (run : alignRequest interval visualTokensPerBlock lastTokensPerBlock snapshotsInEngine req = .ok result) :
    Shrunk req result := by
  unfold alignRequest at run
  split_ifs at run with idle beyond engine
  · cases run
    exact shrunk_refl req
  · obtain ⟨size, found, rfl⟩ := except_mapped_ok.mp run
    exact ⟨size, engine_aligned_le _ _ _ req size found, rfl⟩
  · obtain ⟨size, found, rfl⟩ := except_mapped_ok.mp run
    exact ⟨size, step_aligned_le _ _ _ req size found, rfl⟩

end SnapshotAlignment

theorem align_if_snapshots_shrunk {cfg : ContextChunkingConfig} {contexts result : List LlmRequest}
    (run : alignIfSnapshots cfg contexts = .ok result) : Forall₂ Shrunk contexts result := by
  unfold alignIfSnapshots at run
  split at run
  · unfold alignToStateSnapshotBoundaries at run
    split_ifs at run
    exact (except_map_ok run).imp fun req aligned => align_request_shrunk _ _ _ _ req aligned
  · cases run
    exact forall₂_same.mpr fun req _ => shrunk_refl req

section
variable (capacity : Option Nat) (unit : Nat) (maxContextLength : Option Nat) (contexts : List LlmRequest)
  (undrafted : ∀ req ∈ contexts, req.numDraftTokens = 0)

include undrafted

theorem fit_draft_tokens_from_idle (numCtxTokens : Int) :
    fitDraftTokensFrom capacity unit maxContextLength numCtxTokens contexts = .ok contexts := by
  induction contexts with
  | nil => rfl
  | cons req rest ih =>
    have none := undrafted req mem_cons_self
    have tail := ih (forall_mem_cons.mp undrafted).2
    simp only [fitDraftTokensFrom, none, ne_eq, not_true_eq_false, and_false, if_false, tail]
    rfl

theorem fit_draft_tokens_idle : fitDraftTokens capacity unit maxContextLength contexts = .ok contexts :=
  fit_draft_tokens_from_idle capacity unit maxContextLength contexts undrafted _

end

theorem policy_within_budget (policy : ContextChunkingPolicy) (capacity : Option Nat) (unit : Nat)
    (maxContextLength : Option Nat) (contexts result : List LlmRequest) (fresh : ∀ req ∈ contexts, req.contextChunkSize = 0)
    (run : policyChunkSizes policy capacity unit maxContextLength contexts = .ok result) :
    WithinBudget capacity maxContextLength contexts result := by
  cases policy with
  | equalProgress => exact equal_progress_chunks capacity unit maxContextLength fresh run
  | firstComeFirstServed =>
    cases run
    exact first_come_chunks unit maxContextLength capacity contexts
  | forceChunk => exact force_chunk_sizes capacity unit run

theorem rechunked_undrafted (same : Forall₂ Rechunked given result)
    (undrafted : ∀ req ∈ given, req.numDraftTokens = 0) : ∀ req ∈ result, req.numDraftTokens = 0 := by
  intro req mem
  obtain ⟨src, listed, size, rfl⟩ := forall2_source same mem
  exact undrafted src listed

theorem set_ctx_requests_chunk_size (cfg : ContextChunkingConfig) (capacity maxContextLength : Option Nat)
    (contexts result : List LlmRequest) (undrafted : ∀ req ∈ contexts, req.numDraftTokens = 0)
    (run : setCtxRequestsChunkSize cfg capacity maxContextLength contexts = .ok result) :
    WithinBudget capacity maxContextLength contexts result := by
  unfold setCtxRequestsChunkSize at run
  rw [except_bind_ok] at run
  obtain ⟨chunked, policy, run⟩ := run
  rw [except_bind_ok] at run
  obtain ⟨aligned, snapshots, fitted⟩ := run
  have reset : Forall₂ Rechunked contexts (contexts.map (·.setContextChunkSize 0)) :=
    forall₂_map_right_iff.mpr (forall₂_same.mpr fun req _ => ⟨0, rfl⟩)
  have chosen := policy_within_budget _ _ _ _ _ _ (by simp) policy
  have budget : WithinBudget capacity maxContextLength contexts chunked :=
    ⟨forall2_comp reset chosen.rechunked fun _ _ _ => rechunked_trans, chosen.total, chosen.each⟩
  have shrunk := within_budget_shrunk budget (align_if_snapshots_shrunk snapshots)
  rw [fit_draft_tokens_idle _ _ _ _ (rechunked_undrafted shrunk.rechunked undrafted)] at fitted
  cases fitted
  exact shrunk

end TrtLlm.Batch
