import TrtLlm.FairShare
import TrtLlm.MicroBatchBudget
import TrtLlm.DraftFit

set_option autoImplicit false

namespace TrtLlm.Batch
open List TrtLlm.Lib LlmRequest MicroBatchScheduler

-- A chunk is kept exactly when it reaches the next snapshot, and never past the prompt.
structure AlignedTo (goal : LlmRequest → Nat) (given result : LlmRequest) : Prop where
  shrunk : Shrunk given result
  survives : 0 < result.contextChunkSize ↔ Reaches goal given
  within : result.contextChunkSize ≤ given.computeRemaining

section Alignment
variable {interval visualTokensPerBlock lastTokensPerBlock : Nat} {snapshotsInEngine : Bool}
    (layout : SnapshotLayout interval visualTokensPerBlock) {req : LlmRequest} (pending : PendingContext req)

include layout pending

theorem step_aligned_within (size : Nat)
    (run : stepAlignedSize interval visualTokensPerBlock lastTokensPerBlock req = .ok size) : size ≤ req.computeRemaining := by
  obtain ⟨next, found, rfl⟩ := except_mapped_ok.mp run
  obtain ⟨next', found', past, inside⟩ := next_snapshot_boundary interval visualTokensPerBlock lastTokensPerBlock layout pending
  rw [found] at found'
  cases found'
  unfold computeRemaining
  split_ifs <;> omega

theorem align_request_reaches :
    ∃ result, alignRequest interval visualTokensPerBlock lastTokensPerBlock snapshotsInEngine req = .ok result ∧
      AlignedTo (requiredChunkSize interval visualTokensPerBlock lastTokensPerBlock) req result := by
  have start := snapshot_start_lt pending
  have unfinished : 0 < req.getContextRemainingLength := Nat.sub_pos_of_lt pending.unfinished
  have goalPos := (required_chunk_bounds interval visualTokensPerBlock lastTokensPerBlock layout pending).1
  unfold alignRequest
  by_cases idle : req.contextChunkSize = 0
  · refine ⟨req, by rw [if_pos idle], shrunk_refl req, ?_, by omega⟩
    unfold Reaches
    omega
  rw [if_neg idle, if_neg (by omega)]
  have sized : ∀ size, size ≤ req.contextChunkSize → size ≤ req.computeRemaining →
      (0 < size ↔ requiredChunkSize interval visualTokensPerBlock lastTokensPerBlock req ≤ req.contextChunkSize) →
      AlignedTo (requiredChunkSize interval visualTokensPerBlock lastTokensPerBlock) req
        (req.setContextChunkSize size) := by
    intro size le inside reaches
    refine ⟨⟨size, le, rfl⟩, ?_, ?_⟩
    · rw [set_chunk_size, Reaches, ← reaches]
      omega
    · rw [set_chunk_size]
      omega
  cases snapshotsInEngine with
  | true =>
    obtain ⟨size, found, reaches⟩ := engine_aligned_reaches interval visualTokensPerBlock lastTokensPerBlock layout pending
    refine ⟨_, by rw [if_pos rfl, found]; rfl, sized size ?_ ?_ reaches⟩
    · exact engine_aligned_le _ _ _ req size found
    · obtain ⟨reached, boundary, rfl⟩ := except_mapped_ok.mp found
      have bounded := engine_boundary_le interval visualTokensPerBlock req boundary
      have limit : req.snapshotLimit ≤ req.promptLen := by
        unfold snapshotLimit
        omega
      unfold computeRemaining
      split_ifs <;> omega
  | false =>
    obtain ⟨size, found, reaches⟩ := step_aligned_reaches interval visualTokensPerBlock lastTokensPerBlock layout pending
    refine ⟨_, by rw [if_neg Bool.false_ne_true, found]; rfl, sized size ?_ ?_ reaches⟩
    · exact step_aligned_le _ _ _ req size found
    · exact step_aligned_within layout pending size found

end Alignment

theorem align_list_reaches {config : ContextChunkingConfig} {interval : Nat}
    (given : config.stateSnapshotInterval = some interval)
    (layout : SnapshotLayout interval config.visualSnapshotTokensPerBlock) {ctxs : List LlmRequest}
    (pending : ∀ req ∈ ctxs, PendingContext req) : ∃ aligned, alignIfSnapshots config ctxs = .ok aligned ∧
      Forall₂ (AlignedTo (requiredChunkSize interval config.visualSnapshotTokensPerBlock
        config.lastSnapshotTokensPerBlock)) ctxs aligned := by
  have positive := layout.positive
  simp only [alignIfSnapshots, given, alignToStateSnapshotBoundaries, if_neg (Nat.pos_iff_ne_zero.mp positive)]
  induction ctxs with
  | nil => exact ⟨[], rfl, .nil⟩
  | cons req rest ih =>
    obtain ⟨result, found, aligned⟩ := align_request_reaches layout (pending req mem_cons_self)
    obtain ⟨others, run, tail⟩ := ih (forall_mem_cons.mp pending).2
    refine ⟨result :: others, ?_, .cons aligned tail⟩
    rw [mapM_cons, except_bind_ok]
    exact ⟨result, found, by rw [except_bind_ok]; exact ⟨others, run, rfl⟩⟩

def LlmRequest.wholeChunk (req : LlmRequest) : LlmRequest := req.setContextChunkSize req.getContextRemainingLength

def LlmRequest.wholeCost (req : LlmRequest) : Nat := req.computeRemaining + req.numDraftTokens

theorem whole_chunk_pending {req : LlmRequest} (pending : PendingContext req) : PendingContext req.wholeChunk :=
  ⟨pending.phase, pending.unfinished, pending.recoverable, pending.unapplied⟩

theorem whole_chunk_cost {req : LlmRequest} (pending : PendingContext req) :
    req.wholeChunk.contextCompute req.wholeChunk.contextChunkSize +
      (if req.wholeChunk.isLastContextChunk then req.wholeChunk.numDraftTokens else 0) = req.wholeCost := by
  have remaining := compute_remaining_le req
  have unfinished := pending.unfinished
  have last : req.wholeChunk.isLastContextChunk := by
    have reach : req.contextCurrentPosition + min req.getContextRemainingLength req.getContextRemainingLength =
        req.promptLen := by
      unfold getContextRemainingLength
      omega
    simp only [isLastContextChunk, Bool.or_eq_true, decide_eq_true_eq]
    exact .inr reach
  rw [if_pos last, ← chunk_compute_eq]
  have cost : req.wholeChunk.chunkCompute = req.computeRemaining := by
    unfold wholeChunk
    rw [set_chunk_compute, Nat.min_self, policy_compute_pending pending le_rfl]
    omega
  rw [cost]
  rfl

def WholeFits (capacity maxLength : Nat) (reqs : List LlmRequest) : Prop :=
  (∀ req ∈ reqs, req.wholeCost ≤ maxLength) ∧ (reqs.map LlmRequest.wholeCost).sum ≤ capacity

namespace MicroBatchScheduler
variable (sched : MicroBatchScheduler) (inflight : List Nat) (maxBatchSize : Nat) (maxNumTokens : Option Nat)

structure Collects (maxLength : Nat) (taken : List LlmRequest) (before after : Selection) : Prop where
  contexts : after.contextRequests = before.contextRequests
  generations : after.generationRequests = before.generationRequests
  tokens : after.batchNumTokens = before.batchNumTokens
  pending : after.contextsToBeChunked = before.contextsToBeChunked ++ taken.map LlmRequest.wholeChunk
  fits : after.allContextRequestsFit = true ↔ before.allContextRequestsFit = true ∧ ∀ req ∈ taken, req.wholeCost ≤ maxLength
  compute : after.allContextRequestsFit = true →
    after.numChunkedComputeTokens = before.numChunkedComputeTokens + (taken.map LlmRequest.wholeCost).sum

theorem collects_one {maxLength : Nat} (length : sched.maxContextLength = some maxLength) {req : LlmRequest}
    (pending : PendingContext req) (s : Selection) :
    Collects maxLength [req] s (sched.selectChunkedContext maxBatchSize s req).selection := by
  have cost := whole_chunk_cost pending
  unfold wholeChunk at cost
  unfold selectChunkedContext
  simp only [cost]
  rw [count_scheduled_selection]
  refine ⟨rfl, rfl, rfl, rfl, ?_, fun fit => ?_⟩
  · simp only [length, exceeds, Option.any_some, Bool.and_eq_true, Bool.not_eq_true', decide_eq_false_iff_not,
      not_lt, mem_singleton, forall_eq]
  simp only [Bool.and_eq_true, Bool.not_eq_true'] at fit
  simp only [fit.2, map_cons, map_nil, sum_cons, sum_nil]
  rfl

theorem collects_trans {maxLength : Nat} {first second : List LlmRequest} {a b c : Selection}
    (left : Collects maxLength first a b) (right : Collects maxLength second b c) : Collects maxLength (first ++ second) a c where
  contexts := right.contexts.trans left.contexts
  generations := right.generations.trans left.generations
  tokens := right.tokens.trans left.tokens
  pending := by rw [right.pending, left.pending, map_append, append_assoc]
  fits := by
    rw [right.fits, left.fits]
    simp only [mem_append, or_imp, forall_and, and_assoc]
  compute fit := by
    rw [right.compute fit, left.compute (right.fits.mp fit).1, map_append, sum_append]
    omega

theorem select_contexts {maxLength : Nat} (length : sched.maxContextLength = some maxLength)
    (chunking : sched.ctxChunkConfig.isSome) (rest : List LlmRequest) (pending : ∀ req ∈ rest, PendingContext req)
    (admissible : ∀ req ∈ rest, sched.Admissible inflight req) (s : Selection) :
    ∃ after, sched.selectRequests inflight maxBatchSize maxNumTokens s rest = .ok after ∧
      Collects maxLength (rest.take (max 1 (maxBatchSize - s.scheduledReqSize))) s after := by
  induction rest generalizing s with
  | nil =>
    refine ⟨s, rfl, rfl, rfl, rfl, ?_, ?_, fun _ => ?_⟩
    · simp
    · simp
    · simp
  | cons req rest ih =>
    have here := pending req mem_cons_self
    have one := sched.collects_one maxBatchSize length here s
    have body : sched.selectRequest inflight maxBatchSize maxNumTokens s req =
        .ok (sched.selectChunkedContext maxBatchSize s req) := by
      obtain ⟨open_, idle⟩ := admissible req mem_cons_self
      unfold selectRequest
      rw [if_neg (by simpa using open_), if_neg idle, if_neg (by simp [context_not_encoder here.phase]),
        if_pos here.phase, if_neg (by simpa [Option.isSome_iff_ne_none] using chunking)]
    have counted : (sched.selectChunkedContext maxBatchSize s req).selection.scheduledReqSize =
        s.scheduledReqSize + 1 := by
      unfold selectChunkedContext
      rw [count_scheduled_selection]
    unfold selectRequests
    rw [body]
    cases flow : sched.selectChunkedContext maxBatchSize s req with
    | stop after =>
      rw [flow] at one
      have full : maxBatchSize ≤ s.scheduledReqSize + 1 := by
        unfold selectChunkedContext countScheduled at flow
        dsimp only at flow
        split at flow
        · assumption
        · cases flow
      have single : max 1 (maxBatchSize - s.scheduledReqSize) = 1 := by omega
      rw [single, take_succ_cons, take_zero]
      exact ⟨after, rfl, one⟩
    | next after =>
      rw [flow] at one counted
      have room : s.scheduledReqSize + 1 < maxBatchSize := by
        have below := count_scheduled_next flow
        rw [← counted]
        exact below
      obtain ⟨final, run, more⟩ := ih (forall_mem_cons.mp pending).2
        (forall_mem_cons.mp admissible).2 after
      have batch : max 1 (maxBatchSize - s.scheduledReqSize) =
          max 1 (maxBatchSize - after.scheduledReqSize) + 1 := by
        change after.scheduledReqSize = _ at counted
        omega
      rw [batch, take_succ_cons]
      exact ⟨final, run, collects_trans one more⟩

end MicroBatchScheduler

section Progress
variable (config : ContextChunkingConfig) (interval capacity maxLength : Nat)

def snapshotGoal (req : LlmRequest) : Nat :=
  requiredChunkSize interval config.visualSnapshotTokensPerBlock config.lastSnapshotTokensPerBlock req

def PrefillProgresses (reqs : List LlmRequest) : Prop :=
  WholeFits capacity maxLength reqs ∨
    ShareReaches (snapshotGoal config interval) capacity config.chunkUnitSize maxLength config.chunkingPolicy reqs

theorem snapshot_goal_toward (layout : SnapshotLayout interval config.visualSnapshotTokensPerBlock) {req : LlmRequest}
    (pending : PendingContext req) : TowardGoal (snapshotGoal config interval) req := by
  obtain ⟨positive, within⟩ := required_chunk_bounds interval config.visualSnapshotTokensPerBlock
    config.lastSnapshotTokensPerBlock layout pending
  exact ⟨pending, positive, within, fun _ => rfl⟩

theorem toward_whole {goal : LlmRequest → Nat} {req : LlmRequest} (toward : TowardGoal goal req) :
    Reaches goal req.wholeChunk := by
  have remaining := compute_remaining_le req
  have within := toward.within
  unfold wholeChunk
  rw [Reaches, toward.stable, set_chunk_size]
  omega

def SameChunk (given result : LlmRequest) : Prop :=
  result.contextChunkSize = given.contextChunkSize ∧ result.state = given.state

theorem Trimmed.same_chunk {given result : LlmRequest} (trimmed : Trimmed given result) : SameChunk given result := by
  obtain ⟨_, _, rfl⟩ := trimmed
  exact ⟨rfl, rfl⟩

section
variable {goal : LlmRequest → Nat} {given aligned fitted : List LlmRequest}
    (align : List.Forall₂ (AlignedTo goal) given aligned) (fit : List.Forall₂ SameChunk aligned fitted)

include align fit

theorem aligned_positive : (∃ req ∈ fitted, 0 < req.contextChunkSize) ↔ ∃ req ∈ given, Reaches goal req := by
  have steps := forall2_comp (T := fun a b => 0 < b.contextChunkSize ↔ Reaches goal a) align fit
    fun a b c left right => by rw [right.1]; exact left.survives
  constructor
  · rintro ⟨req, mem, positive⟩
    obtain ⟨src, listed, step⟩ := forall2_source steps mem
    exact ⟨src, listed, step.mp positive⟩
  · rintro ⟨req, mem, met⟩
    obtain ⟨res, listed, step⟩ := forall2_source steps.flip mem
    exact ⟨res, listed, step.mpr met⟩

theorem aligned_phase (phase : ∀ req ∈ given, req.isContextInitState) : ∀ req ∈ fitted, req.isContextInitState := by
  intro req mem
  obtain ⟨mid, between, same⟩ := forall2_source fit mem
  obtain ⟨src, listed, step⟩ := forall2_source align between
  obtain ⟨size, _, rfl⟩ := step.shrunk
  rw [isContextInitState, same.2]
  exact phase src listed

end

variable {reqs : List LlmRequest}

theorem all_fit_iff {sched : MicroBatchScheduler} (chunking : sched.ctxChunkConfig = some config)
    (policy : config.chunkingPolicy ≠ .forceChunk) {s : Selection}
    (collected : Collects maxLength reqs {} s) :
    sched.allFit (some capacity) s = true ↔ WholeFits capacity maxLength reqs := by
  have fresh : s.batchNumTokens = 0 := collected.tokens
  have unforced : sched.forcesChunks = false := by simp [forcesChunks, chunking, policy]
  simp only [allFit, unforced, fresh, Option.map_some, Nat.sub_zero, exceeds, Option.any_some,
    Bool.not_false, Bool.and_true, Bool.and_eq_true, Bool.not_eq_true', decide_eq_false_iff_not, not_lt]
  constructor
  · rintro ⟨all, room⟩
    have total : s.numChunkedComputeTokens = 0 + (reqs.map wholeCost).sum := collected.compute all
    exact ⟨(collected.fits.mp all).2, by omega⟩
  · rintro ⟨each, room⟩
    have all := collected.fits.mpr ⟨rfl, each⟩
    have total : s.numChunkedComputeTokens = 0 + (reqs.map wholeCost).sum := collected.compute all
    exact ⟨all, by omega⟩

section
variable (given : config.stateSnapshotInterval = some interval)
    (layout : SnapshotLayout interval config.visualSnapshotTokensPerBlock) (positive : 0 < config.chunkUnitSize)
    (nonempty : reqs ≠ []) (pending : ∀ req ∈ reqs, PendingContext req)

include given layout positive nonempty pending

theorem whole_path (fits : WholeFits capacity maxLength reqs) :
    ∃ aligned fitted, alignIfSnapshots config (reqs.map wholeChunk) = .ok aligned ∧
      fitDraftTokens none config.chunkUnitSize (some maxLength) aligned = .ok fitted ∧
      (∀ req ∈ fitted, req.isContextInitState) ∧ ∃ req ∈ fitted, 0 < req.contextChunkSize := by
  have whole : ∀ req ∈ reqs.map wholeChunk, PendingContext req := by
    exact forall_mem_map.mpr fun src listed => whole_chunk_pending (pending src listed)
  obtain ⟨aligned, align, steps⟩ := align_list_reaches given layout whole
  have short : ∀ req ∈ aligned, LastFits (some maxLength) req := by
    intro req mem _ _ limit bound
    cases bound
    obtain ⟨src, listed, step⟩ := forall2_source steps mem
    obtain ⟨origin, from_, rfl⟩ := mem_map.mp listed
    have cost := fits.1 origin from_
    exact le_trans step.within (le_trans (Nat.le_add_right _ _) cost)
  obtain ⟨fitted, fit, trimmed, _⟩ := @fit_draft_tokens_ok aligned none _ _ (totalCompute aligned) positive short nofun
  have same := trimmed.imp fun _ _ => Trimmed.same_chunk
  refine ⟨aligned, fitted, align, fit, aligned_phase steps same fun req mem => (whole req mem).phase, ?_⟩
  rw [aligned_positive steps same]
  obtain ⟨req, rest, rfl⟩ := exists_cons_of_ne_nil nonempty
  exact ⟨req.wholeChunk, mem_map_of_mem mem_cons_self,
    toward_whole (snapshot_goal_toward config interval layout (pending req mem_cons_self))⟩

theorem shared_path (policy : config.chunkingPolicy ≠ .forceChunk) :
    ∃ chunked, setCtxRequestsChunkSize config (some capacity) (some maxLength) (reqs.map wholeChunk) = .ok chunked ∧
      (∀ req ∈ chunked, req.isContextInitState) ∧ ((∃ req ∈ chunked, 0 < req.contextChunkSize) ↔
        ShareReaches (snapshotGoal config interval) capacity config.chunkUnitSize maxLength config.chunkingPolicy reqs) := by
  have toward : ∀ req ∈ reqs, TowardGoal (snapshotGoal config interval) req :=
    fun req mem => snapshot_goal_toward config interval layout (pending req mem)
  obtain ⟨chunked, chosen, reaches⟩ := policy_share policy positive nonempty toward
  have reset : (reqs.map wholeChunk).map (·.setContextChunkSize 0) =
      reqs.map (·.setContextChunkSize 0) := by
    rw [map_map]
    rfl
  have budget := policy_within_budget _ _ _ _ _ _ (by simp) chosen
  have waiting : ∀ req ∈ chunked, PendingContext req := by
    intro req mem
    obtain ⟨src, listed, size, rfl⟩ := forall2_source budget.rechunked mem
    obtain ⟨origin, from_, rfl⟩ := mem_map.mp listed
    exact (toward_goal_set (toward origin from_) size).pending
  obtain ⟨aligned, align, steps⟩ := align_list_reaches given layout waiting
  have bounded := within_budget_shrunk budget (steps.imp fun _ _ step => step.shrunk)
  have short : ∀ req ∈ aligned, LastFits (some maxLength) req := by
    intro req mem _ _ limit bound
    obtain ⟨src, listed, step⟩ := forall2_source steps mem
    have cost := bounded.each limit bound req mem
    have inside := step.within
    obtain ⟨size, _, rfl⟩ := step.shrunk
    rw [set_chunk_compute, policy_compute_pending (waiting src listed) (min_le_right _ _)] at cost
    rw [set_chunk_size] at inside ⊢
    omega
  obtain ⟨fitted, fit, trimmed, _⟩ := fit_draft_tokens_ok positive short
    fun limit bound => Int.ofNat_le.mpr (bounded.total limit bound)
  have same := trimmed.imp fun _ _ => Trimmed.same_chunk
  refine ⟨fitted, ?_, aligned_phase steps same fun req mem => (waiting req mem).phase, ?_⟩
  · unfold setCtxRequestsChunkSize
    rw [reset, except_bind_ok]
    exact ⟨chunked, chosen, by rw [except_bind_ok]; exact ⟨aligned, align, fit⟩⟩
  · rw [aligned_positive steps same]
    exact reaches

theorem size_contexts_progress {sched : MicroBatchScheduler} (chunking : sched.ctxChunkConfig = some config)
    (length : sched.maxContextLength = some maxLength) (policy : config.chunkingPolicy ≠ .forceChunk) {s : Selection}
    (collected : Collects maxLength reqs {} s) :
    ∃ chunked, sched.sizeContexts (some capacity) s = .ok chunked ∧ (∀ req ∈ chunked, req.isContextInitState) ∧
      ((∃ req ∈ chunked, 0 < req.contextChunkSize) ↔ PrefillProgresses config interval capacity maxLength reqs) := by
  have fits := all_fit_iff config capacity maxLength chunking policy collected
  have waiting : s.contextsToBeChunked = reqs.map wholeChunk := collected.pending
  have fresh : s.batchNumTokens = 0 := collected.tokens
  simp only [sizeContexts, chunking, given, Option.isSome_some, if_true, waiting, fresh, length, Option.map_some, Nat.sub_zero]
  by_cases whole : WholeFits capacity maxLength reqs
  · obtain ⟨aligned, fitted, align, fit, phase, progress⟩ :=
      whole_path config interval capacity maxLength given layout positive nonempty pending whole
    refine ⟨fitted, ?_, phase, fun _ => .inl whole, fun _ => progress⟩
    rw [if_pos (fits.mpr whole), except_bind_ok]
    exact ⟨aligned, align, fit⟩
  · obtain ⟨chunked, run, phase, progress⟩ :=
      shared_path config interval capacity maxLength given layout positive nonempty pending policy
    refine ⟨chunked, ?_, phase, ?_⟩
    · rw [if_neg fun fit => whole (fits.mp fit)]
      exact run
    · rw [progress, PrefillProgresses]
      exact (or_iff_right whole).symm

end

theorem sort_requests_ok (ctxs generations : List LlmRequest) (chunks : Bool)
    (phase : ∀ req ∈ ctxs, req.isContextInitState) : ∃ sorted, sortRequests ctxs generations chunks = .ok sorted := by
  unfold sortRequests
  cases chunks with
  | false => exact ⟨_, rfl⟩
  | true =>
    have readable : ctxs.find? (fun req => !req.contextChunkReadable) = none := by
      rw [find?_eq_none]
      intro req mem
      simp [contextChunkReadable, phase req mem]
    rw [if_pos rfl, readable]
    exact ⟨_, rfl⟩

theorem snapshot_prefill_progress (untilState afterState : LlmRequestState) (sched : MicroBatchScheduler)
    (active : List LlmRequest) (inflight : List Nat) (maxBatchSize : Nat)
    (created : MicroBatchScheduler.create (some config) (some maxLength) untilState afterState = .ok sched)
    (policy : config.chunkingPolicy = .equalProgress ∨ config.chunkingPolicy = .firstComeFirstServed)
    (given : config.stateSnapshotInterval = some interval)
    (layout : SnapshotLayout interval config.visualSnapshotTokensPerBlock) (positive : 0 < config.chunkUnitSize)
    (nonempty : active ≠ []) (pending : ∀ req ∈ active, PendingContext req)
    (admissible : ∀ req ∈ active, sched.schedulable req ∧ req.requestId ∉ inflight) :
    (∃ contexts generations, sched.schedule active inflight maxBatchSize (some capacity) = .ok (contexts, generations) ∧
        ∃ req ∈ contexts, 0 < req.contextChunkSize) ↔
      PrefillProgresses config interval capacity maxLength (active.take (max 1 maxBatchSize)) := by
  obtain ⟨chunking, length⟩ : sched.ctxChunkConfig = some config ∧ sched.maxContextLength = some maxLength := by
    simp only [create] at created
    split at created
    · cases created
      exact ⟨rfl, rfl⟩
    split_ifs at created
    all_goals
      cases created
      exact ⟨rfl, rfl⟩
  have shared : config.chunkingPolicy ≠ .forceChunk := by rcases policy with same | same <;> simp [same]
  obtain ⟨s, select, collected⟩ := sched.select_contexts inflight maxBatchSize (some capacity) length
    (by simp [chunking]) active pending admissible {}
  have taken : active.take (max 1 maxBatchSize) ≠ [] := by
    rw [Ne, take_eq_nil_iff, not_or]
    exact ⟨by omega, nonempty⟩
  obtain ⟨chunked, sized, phase, progress⟩ := size_contexts_progress config interval capacity maxLength given layout
    positive taken (fun req mem => pending req (take_subset _ _ mem)) chunking length shared collected
  have contexts : s.contextRequests = [] := collected.contexts
  obtain ⟨⟨returned, generations⟩, sorted⟩ := sort_requests_ok
    (s.contextRequests ++ chunked.filter (0 < ·.contextChunkSize)) s.generationRequests (!sched.allFit (some capacity) s) (by
      rw [contexts]
      exact fun req mem => phase req (mem_of_mem_filter mem))
  have run : sched.schedule active inflight maxBatchSize (some capacity) = .ok (returned, generations) := by
    unfold schedule
    rw [except_bind_ok]
    exact ⟨s, select, by rw [except_bind_ok]; exact ⟨chunked, sized, sorted⟩⟩
  have members : (∃ req ∈ returned, 0 < req.contextChunkSize) ↔ ∃ req ∈ chunked, 0 < req.contextChunkSize := by
    have perm := (sort_requests_perm sorted).1
    rw [contexts, nil_append] at perm
    simp only [perm.mem_iff, mem_filter, decide_eq_true_eq, and_assoc, and_self]
  rw [← progress, ← members]
  refine ⟨?_, fun found => ⟨returned, generations, run, found⟩⟩
  rintro ⟨returned', generations', run', found⟩
  rw [run] at run'
  cases run'
  exact found

end Progress

def sharedSnapshots : ContextChunkingConfig :=
  { chunkingPolicy := .equalProgress, chunkUnitSize := 4, stateSnapshotInterval := some 8 }

def longPrompt (requestId : Nat) : LlmRequest := { requestId := requestId, promptLen := 40 }

theorem long_prompt_pending (reqId : Nat) : PendingContext (longPrompt reqId) :=
  ⟨rfl, Nat.zero_lt_succ 39, fun _ => Nat.zero_lt_succ 39, fun _ => .inl rfl⟩

theorem snapshot_prefill_progress_two : PrefillProgresses sharedSnapshots 8 16 16 [longPrompt 1, longPrompt 2] :=
  (snapshot_prefill_progress sharedSnapshots 8 16 16 .contextInit .generationToComplete
    { maxContextLength := some 16, ctxChunkConfig := some sharedSnapshots } [longPrompt 1, longPrompt 2] [] 4 rfl
    (.inl rfl) rfl ⟨by decide, by decide⟩ (by decide) (by decide)
    (by
      intro req mem
      simp only [mem_cons, not_mem_nil, or_false] at mem
      rcases mem with rfl | rfl <;> exact long_prompt_pending _)
    (by decide)).mp
    ⟨[(longPrompt 1).setContextChunkSize 8, (longPrompt 2).setContextChunkSize 8], [], rfl, by decide⟩

-- Each of four prompts of forty tokens gets one unit of four, none reaches its first snapshot at eight, and
-- nothing is scheduled.
theorem equal_progress_prefill_stalls :
    ∃ sched, MicroBatchScheduler.create (some sharedSnapshots) (some 16) .contextInit .generationToComplete = .ok sched ∧
      sched.schedule [longPrompt 1, longPrompt 2, longPrompt 3, longPrompt 4] [] 4 (some 16) = .ok ([], []) :=
  ⟨_, rfl, rfl⟩

end TrtLlm.Batch
