import TrtLlm.ChunkBudget
import TrtLlm.MicroBatch

set_option autoImplicit false

namespace TrtLlm.Batch
open List TrtLlm.Lib Bool LlmRequest

def LlmRequest.contextTokens (req : LlmRequest) : Nat :=
  if req.isEncoderInitState then req.encoderOutputLen.getD 0 else req.contextCompute req.contextChunkSize

def LlmRequest.generationTokens (req : LlmRequest) : Nat := req.getBeamWidthByIter + req.numDraftTokens

def batchTokens (contexts generations : List LlmRequest) : Nat :=
  (contexts.map LlmRequest.contextTokens).sum + (generations.map LlmRequest.generationTokens).sum

theorem chunk_compute_eq (req : LlmRequest) : req.chunkCompute = req.contextCompute req.contextChunkSize := by
  have fits : req.contextChunkSize ≤ req.getContextRemainingLength := req.chunk_le_remaining
  unfold chunkCompute policyCompute contextCompute policyReusable reusable
  cases first : req.isFirstContextChunk with
  | false => rfl
  | true =>
    dsimp only [reuseAdjustedCompute]
    split_ifs <;> omega

section
variable {req : LlmRequest} (context : req.isContextInitState)

include context

theorem context_not_encoder : req.isEncoderInitState = false := by
  unfold isContextInitState at context
  unfold isEncoderInitState
  cases st : req.state <;> simp_all

theorem context_tokens_eq : req.contextTokens = req.chunkCompute := by
  rw [contextTokens, context_not_encoder context, chunk_compute_eq]
  rfl

theorem whole_context_charge : req.contextTokens ≤ max 1 (req.contextCompute req.numTokens + req.numDraftTokens) := by
  have chunk := req.chunk_le_remaining
  have prompt := req.prompt_le_tokens
  have cost : req.contextCompute req.contextChunkSize ≤ req.contextCompute req.numTokens :=
    reuse_adjusted_mono _ _ (by omega)
  rw [context_tokens_eq context, chunk_compute_eq]
  omega

end

namespace Selection

def requests (s : Selection) : List LlmRequest := s.contextRequests ++ (s.contextsToBeChunked ++ s.generationRequests)

def ids (s : Selection) : List Nat := s.requests.map (·.requestId)

end Selection

namespace MicroBatchScheduler
variable (sched : MicroBatchScheduler) (inflight : List Nat) (maxBatchSize : Nat) (maxNumTokens : Option Nat)

def Admissible (req : LlmRequest) : Prop := sched.schedulable req ∧ req.requestId ∉ inflight

inductive SelectStep (s : Selection) (req : LlmRequest) : Flow → Prop
  | skipped : SelectStep s req (.next s)
  | full : SelectStep s req (.stop s)
  | encoder (tokens : Nat) (admissible : sched.Admissible inflight req) (phase : req.isEncoderInitState)
      (length : req.encoderOutputLen = some tokens)
      (short : ∀ limit ∈ sched.maxContextLength, tokens ≤ limit)
      (fits : ∀ limit ∈ maxNumTokens, s.batchNumTokens + tokens ≤ limit) :
      SelectStep s req (countScheduled maxBatchSize
        { s with
          contextRequests := s.contextRequests ++ [req]
          batchNumTokens := s.batchNumTokens + tokens })
  | wholeContext (tokens : Nat) (admissible : sched.Admissible inflight req) (phase : req.isContextInitState)
      (charge : req.contextTokens ≤ tokens)
      (short : ∀ limit ∈ sched.maxContextLength, tokens ≤ limit)
      (fits : ∀ limit ∈ maxNumTokens, s.batchNumTokens + tokens ≤ limit) :
      SelectStep s req (countScheduled maxBatchSize
        { s with
          contextRequests := s.contextRequests ++ [req]
          batchNumTokens := s.batchNumTokens + tokens })
  | chunkedContext (admissible : sched.Admissible inflight req) (phase : req.isContextInitState) :
      SelectStep s req (sched.selectChunkedContext maxBatchSize s req)
  | generation (admissible : sched.Admissible inflight req)
      (fits : ∀ limit ∈ maxNumTokens, s.batchNumTokens + req.generationTokens ≤ limit)
      (beam : s.scheduledBeamWidth = 0 ∨ s.scheduledBeamWidth = req.getBeamWidthByIter) :
      SelectStep s req (countScheduled maxBatchSize
        { s with
          scheduledBeamWidth := req.getBeamWidthByIter
          generationRequests := s.generationRequests ++ [req]
          batchNumTokens := s.batchNumTokens + req.generationTokens })

section
variable (s : Selection) (req : LlmRequest) (flow : Flow)

theorem select_encoder_step (admissible : sched.Admissible inflight req) (phase : req.isEncoderInitState)
    (run : sched.selectEncoder maxBatchSize maxNumTokens s req = .ok flow) :
    sched.SelectStep inflight maxBatchSize maxNumTokens s req flow := by
  unfold selectEncoder getEncoderOutputLen at run
  cases length : req.encoderOutputLen with
  | none => simp [length, bind, Except.bind] at run
  | some tokens =>
    simp only [length, bind, Except.bind] at run
    by_cases long : exceeds sched.maxContextLength tokens
    · simp [long, throw, throwThe, MonadExceptOf.throw] at run
    by_cases excess : exceeds maxNumTokens (s.batchNumTokens + tokens)
    · simp only [long, excess] at run
      cases run
      exact .full
    · simp only [long, excess] at run
      cases run
      exact .encoder tokens admissible phase length
        (exceeds_eq_false.mp (eq_false_iff.mpr long)) (exceeds_eq_false.mp (eq_false_iff.mpr excess))

theorem select_whole_context_step (admissible : sched.Admissible inflight req) (phase : req.isContextInitState)
    (run : sched.selectWholeContext maxBatchSize maxNumTokens s req = .ok flow) :
    sched.SelectStep inflight maxBatchSize maxNumTokens s req flow := by
  unfold selectWholeContext at run
  have charge := whole_context_charge phase
  generalize max 1 (req.contextCompute req.numTokens + req.numDraftTokens) = tokens at run charge
  by_cases long : exceeds sched.maxContextLength tokens
  · simp [long, throw, throwThe, MonadExceptOf.throw, bind, Except.bind] at run
  by_cases excess : exceeds maxNumTokens (s.batchNumTokens + tokens)
  · simp only [long, excess] at run
    cases run
    exact .full
  · simp only [long, excess] at run
    cases run
    exact .wholeContext tokens admissible phase charge
      (exceeds_eq_false.mp (eq_false_iff.mpr long)) (exceeds_eq_false.mp (eq_false_iff.mpr excess))

theorem select_request_step (run : sched.selectRequest inflight maxBatchSize maxNumTokens s req = .ok flow) :
    sched.SelectStep inflight maxBatchSize maxNumTokens s req flow := by
  unfold selectRequest at run
  split_ifs at run with outside flying encoder context unchunked
  · cases run
    exact .skipped
  · cases run
    exact .skipped
  · exact sched.select_encoder_step inflight _ _ s req flow ⟨by simpa using outside, flying⟩ encoder run
  · exact sched.select_whole_context_step inflight _ _ s req flow ⟨by simpa using outside, flying⟩ context run
  · cases run
    exact .chunkedContext ⟨by simpa using outside, flying⟩ context
  · cases run
    unfold selectGeneration
    dsimp only
    split_ifs with excess beam
    · exact .full
    · exact .generation ⟨by simpa using outside, flying⟩
        (exceeds_eq_false.mp (eq_false_iff.mpr excess)) beam
    · exact .skipped

end

structure SelectionInv (seen : List LlmRequest) (s : Selection) : Prop where
  counted : s.scheduledReqSize = s.requests.length
  bounded : s.scheduledReqSize ≤ maxBatchSize
  chosen : s.ids.Subperm (seen.map (·.requestId))
  admissible : ∀ req ∈ s.requests, sched.Admissible inflight req
  origin : ∀ req ∈ s.requests, ∃ given ∈ seen, Rechunked given req
  charged : batchTokens s.contextRequests s.generationRequests ≤ s.batchNumTokens
  within : ∀ limit ∈ maxNumTokens, s.batchNumTokens ≤ limit
  short : ∀ limit ∈ sched.maxContextLength, ∀ req ∈ s.contextRequests, req.contextTokens ≤ limit
  pending : ∀ req ∈ s.contextsToBeChunked, req.isContextInitState
  fitting : s.allContextRequestsFit → totalCompute s.contextsToBeChunked ≤ s.numChunkedComputeTokens ∧
    ∀ limit ∈ sched.maxContextLength, ∀ req ∈ s.contextsToBeChunked, req.chunkCompute ≤ limit
  beams : ∀ req ∈ s.generationRequests, req.getBeamWidthByIter = s.scheduledBeamWidth

variable {sched inflight maxBatchSize maxNumTokens} {s : Selection} {seen : List LlmRequest} {req : LlmRequest}

theorem SelectionInv.admit {s' : Selection} {res : LlmRequest} (inv : sched.SelectionInv inflight maxBatchSize maxNumTokens seen s)
    (room : s.scheduledReqSize < maxBatchSize) (admissible : sched.Admissible inflight req) (same : Rechunked req res)
    (joined : s'.requests.Perm (res :: s.requests)) (counted : s'.scheduledReqSize = s.scheduledReqSize + 1)
    (charged : batchTokens s'.contextRequests s'.generationRequests ≤ s'.batchNumTokens)
    (within : ∀ limit ∈ maxNumTokens, s'.batchNumTokens ≤ limit)
    (short : ∀ limit ∈ sched.maxContextLength, ∀ req ∈ s'.contextRequests, req.contextTokens ≤ limit)
    (pending : ∀ req ∈ s'.contextsToBeChunked, req.isContextInitState)
    (fitting : s'.allContextRequestsFit → totalCompute s'.contextsToBeChunked ≤ s'.numChunkedComputeTokens ∧
      ∀ limit ∈ sched.maxContextLength, ∀ req ∈ s'.contextsToBeChunked, req.chunkCompute ≤ limit)
    (beams : ∀ req ∈ s'.generationRequests, req.getBeamWidthByIter = s'.scheduledBeamWidth) :
    sched.SelectionInv inflight maxBatchSize maxNumTokens (seen ++ [req]) s' := by
  have identity : res.requestId = req.requestId := by
    obtain ⟨size, rfl⟩ := same
    rfl
  refine ⟨?_, counted ▸ room, ?_, fun r mem => ?_, fun r mem => ?_, charged, within, short, pending, fitting, beams⟩
  · rw [counted, joined.length_eq, length_cons, inv.counted]
  · have ids : s'.ids.Perm (req.requestId :: s.ids) := by
      have mapped := joined.map (·.requestId)
      rwa [map_cons, identity] at mapped
    have grown : (req.requestId :: s.ids).Subperm (req.requestId :: seen.map (·.requestId)) := (subperm_cons _).mpr inv.chosen
    have rotated : (req.requestId :: seen.map (·.requestId)).Perm ((seen ++ [req]).map (·.requestId)) := by
      rw [map_append]
      exact (perm_append_singleton _ _).symm
    exact ids.subperm.trans (grown.trans rotated.subperm)
  · rcases mem_cons.mp (joined.mem_iff.mp mem) with rfl | old
    · obtain ⟨size, rfl⟩ := same
      exact admissible
    · exact inv.admissible r old
  · rcases mem_cons.mp (joined.mem_iff.mp mem) with rfl | old
    · exact ⟨req, by simp, same⟩
    · obtain ⟨given, listed, step⟩ := inv.origin r old
      exact ⟨given, mem_append_left _ listed, step⟩

theorem count_scheduled_selection (s : Selection) :
    (countScheduled maxBatchSize s).selection = { s with scheduledReqSize := s.scheduledReqSize + 1 } := by
  unfold countScheduled
  dsimp only
  split <;> rfl

variable {s : Selection}

theorem count_scheduled_next {s' : Selection} (next : countScheduled maxBatchSize s = .next s') :
    s'.scheduledReqSize < maxBatchSize := by
  unfold countScheduled at next
  dsimp only at next
  split at next
  · cases next
  · cases next
    exact Nat.lt_of_not_le ‹_›

theorem selection_extend (rest : List LlmRequest) (inv : sched.SelectionInv inflight maxBatchSize maxNumTokens seen s) :
    sched.SelectionInv inflight maxBatchSize maxNumTokens (seen ++ rest) s where
  __ := inv
  chosen := inv.chosen.trans (by rw [map_append]; exact (sublist_append_left _ _).subperm)
  origin r member := by
    obtain ⟨given, listed, same⟩ := inv.origin r member
    exact ⟨given, mem_append_left _ listed, same⟩

section
variable {req : LlmRequest} (inv : sched.SelectionInv inflight maxBatchSize maxNumTokens seen s)
    (room : s.scheduledReqSize < maxBatchSize) (admissible : sched.Admissible inflight req)

include inv room admissible

theorem selection_context {tokens : Nat} (charge : req.contextTokens ≤ tokens)
    (short : ∀ limit ∈ sched.maxContextLength, tokens ≤ limit)
    (fits : ∀ limit ∈ maxNumTokens, s.batchNumTokens + tokens ≤ limit) :
    sched.SelectionInv inflight maxBatchSize maxNumTokens (seen ++ [req])
      { s with
        contextRequests := s.contextRequests ++ [req]
        batchNumTokens := s.batchNumTokens + tokens
        scheduledReqSize := s.scheduledReqSize + 1 } := by
  refine inv.admit room admissible (rechunked_refl req) ?_ rfl ?_ fits ?_ inv.pending inv.fitting inv.beams
  · simp only [Selection.requests, append_assoc]
    exact perm_middle
  · have charged := inv.charged
    simp only [batchTokens, map_append, sum_append, map_cons, map_nil, sum_cons, sum_nil] at charged ⊢
    omega
  · intro limit bound r mem
    rcases mem_append.mp mem with old | new
    · exact inv.short limit bound r old
    · rw [mem_singleton.mp new]
      exact le_trans charge (short limit bound)

theorem selection_generation (fits : ∀ limit ∈ maxNumTokens, s.batchNumTokens + req.generationTokens ≤ limit)
    (beam : s.scheduledBeamWidth = 0 ∨ s.scheduledBeamWidth = req.getBeamWidthByIter) :
    sched.SelectionInv inflight maxBatchSize maxNumTokens (seen ++ [req])
      { s with
        scheduledBeamWidth := req.getBeamWidthByIter
        generationRequests := s.generationRequests ++ [req]
        batchNumTokens := s.batchNumTokens + req.generationTokens
        scheduledReqSize := s.scheduledReqSize + 1 } := by
  refine inv.admit room admissible (rechunked_refl req) ?_ rfl ?_ fits inv.short inv.pending inv.fitting ?_
  · simp only [Selection.requests, ← append_assoc]
    exact perm_append_singleton _ _
  · have charged := inv.charged
    simp only [batchTokens, map_append, sum_append, map_cons, map_nil, sum_cons, sum_nil] at charged ⊢
    omega
  intro r mem
  rcases mem_append.mp mem with old | new
  · -- A zero width would mean that no generation request is scheduled yet.
    have width := inv.beams r old
    have pos := r.beam_width_pos
    rcases beam with unset | same
    · omega
    · rw [width, same]
  · rw [mem_singleton.mp new]

theorem selection_chunked (phase : req.isContextInitState) : sched.SelectionInv inflight maxBatchSize maxNumTokens (seen ++ [req])
      (sched.selectChunkedContext maxBatchSize s req).selection := by
  unfold selectChunkedContext
  rw [count_scheduled_selection]
  generalize drafts : (if (req.setContextChunkSize req.getContextRemainingLength).isLastContextChunk then
    (req.setContextChunkSize req.getContextRemainingLength).numDraftTokens else 0) = draftTokens
  have same : Rechunked req (req.setContextChunkSize req.getContextRemainingLength) := ⟨_, rfl⟩
  have wholePhase : (req.setContextChunkSize req.getContextRemainingLength).isContextInitState := phase
  generalize req.setContextChunkSize req.getContextRemainingLength = whole at same wholePhase
  refine inv.admit room admissible same ((Perm.append_left _ (by rw [append_assoc]; exact perm_middle)).trans perm_middle)
    rfl inv.charged inv.within inv.short ?_ ?_ inv.beams
  · exact forall_mem_append.mpr ⟨inv.pending, forall_mem_singleton.mpr wholePhase⟩
  intro fit
  obtain ⟨before, short⟩ := and_eq_true_iff.mp fit
  rw [not_eq_true'] at short
  obtain ⟨total, each⟩ := inv.fitting before
  have cost : whole.chunkCompute ≤ whole.contextCompute whole.contextChunkSize + draftTokens := by
    rw [chunk_compute_eq]
    exact Nat.le_add_right _ _
  refine ⟨?_, fun limit bound r mem => ?_⟩
  · simp only [total_compute_append, total_compute_cons, total_compute_nil, short]
    rw [if_neg Bool.false_ne_true]
    omega
  · rcases mem_append.mp mem with old | new
    · exact each limit bound r old
    · rw [mem_singleton.mp new]
      exact le_trans cost (exceeds_eq_false.mp short limit bound)

end

theorem select_step_inv {flow : Flow}
    (inv : sched.SelectionInv inflight maxBatchSize maxNumTokens seen s) (room : s.scheduledReqSize < maxBatchSize)
    (step : sched.SelectStep inflight maxBatchSize maxNumTokens s req flow) :
    sched.SelectionInv inflight maxBatchSize maxNumTokens (seen ++ [req]) flow.selection := by
  cases step with
  | skipped | full => exact selection_extend [req] inv
  | encoder tokens admissible phase length short fits =>
    rw [count_scheduled_selection]
    refine selection_context inv room admissible ?_ short fits
    rw [contextTokens, if_pos phase, length]
    exact le_rfl
  | wholeContext tokens admissible phase charge short fits =>
    rw [count_scheduled_selection]
    exact selection_context inv room admissible charge short fits
  | chunkedContext admissible phase =>
    exact selection_chunked inv room admissible phase
  | generation admissible fits beam =>
    rw [count_scheduled_selection]
    exact selection_generation inv room admissible fits beam

theorem select_step_room {s' : Selection} (room : s.scheduledReqSize < maxBatchSize)
    (step : sched.SelectStep inflight maxBatchSize maxNumTokens s req (.next s')) : s'.scheduledReqSize < maxBatchSize := by
  generalize next : Flow.next s' = flow at step
  cases step with
  | skipped =>
    cases next
    exact room
  | full => cases next
  | encoder | wholeContext | chunkedContext | generation => exact count_scheduled_next next.symm

theorem select_requests_inv (rest : List LlmRequest) {result : Selection}
    (inv : sched.SelectionInv inflight maxBatchSize maxNumTokens seen s) (room : s.scheduledReqSize < maxBatchSize)
    (run : sched.selectRequests inflight maxBatchSize maxNumTokens s rest = .ok result) :
    sched.SelectionInv inflight maxBatchSize maxNumTokens (seen ++ rest) result := by
  induction rest generalizing seen s with
  | nil =>
    cases run
    rwa [append_nil]
  | cons req rest ih =>
    unfold selectRequests at run
    rw [append_cons]
    split at run
    · cases run
    · rename_i s' body
      cases run
      have step := sched.select_request_step inflight maxBatchSize maxNumTokens s req _ body
      exact selection_extend rest (select_step_inv inv room step)
    · rename_i s' body
      have step := sched.select_request_step inflight maxBatchSize maxNumTokens s req _ body
      exact ih (select_step_inv inv room step) (select_step_room room step) run

theorem selection_start : sched.SelectionInv inflight maxBatchSize maxNumTokens [] {} where
  counted := rfl
  bounded := Nat.zero_le _
  chosen := Subperm.refl _
  admissible _ member := nomatch member
  origin _ member := nomatch member
  charged := le_rfl
  within _ _ := Nat.zero_le _
  short _ _ _ member := nomatch member
  pending _ member := nomatch member
  fitting _ := ⟨le_rfl, fun _ _ _ member => nomatch member⟩
  beams _ member := nomatch member

theorem all_fit_within (inv : sched.SelectionInv inflight maxBatchSize maxNumTokens seen s) (fit : sched.allFit maxNumTokens s) :
    WithinBudget (maxNumTokens.map (· - s.batchNumTokens)) sched.maxContextLength
      s.contextsToBeChunked s.contextsToBeChunked := by
  unfold allFit at fit
  rw [and_eq_true, and_eq_true, not_eq_true', exceeds_eq_false] at fit
  obtain ⟨⟨short, room⟩, _⟩ := fit
  obtain ⟨total, each⟩ := inv.fitting short
  exact ⟨forall₂_same.mpr fun req _ => rechunked_refl req,
    fun limit bound => le_trans total (room limit bound), each⟩

theorem size_contexts_within {chunked : List LlmRequest} (inv : sched.SelectionInv inflight maxBatchSize maxNumTokens seen s)
    (undrafted : ∀ req ∈ s.contextsToBeChunked, req.numDraftTokens = 0) (run : sched.sizeContexts maxNumTokens s = .ok chunked) :
    WithinBudget (maxNumTokens.map (· - s.batchNumTokens)) sched.maxContextLength s.contextsToBeChunked chunked := by
  unfold sizeContexts at run
  split at run
  · split_ifs at run with fit
    cases run
    exact all_fit_within inv fit
  split_ifs at run with fit snapshots
  · rw [except_bind_ok] at run
    obtain ⟨aligned, align, fitted⟩ := run
    have budget := within_budget_shrunk (all_fit_within inv fit)
      (align_if_snapshots_shrunk align)
    rw [fit_draft_tokens_idle _ _ _ _ (rechunked_undrafted budget.rechunked undrafted)] at fitted
    cases fitted
    exact budget
  · cases run
    exact all_fit_within inv fit
  · exact set_ctx_requests_chunk_size _ _ _ _ _ undrafted run

end MicroBatchScheduler

theorem sort_by_lora_perm (reqs : List LlmRequest) : (sortByLoraId reqs).Perm reqs :=
  perm_insertionSort _ reqs

theorem sort_requests_perm {ctxs generations sortedContexts sortedGenerations : List LlmRequest} {chunks : Bool}
    (run : sortRequests ctxs generations chunks = .ok (sortedContexts, sortedGenerations)) :
    sortedContexts.Perm ctxs ∧ sortedGenerations.Perm generations := by
  unfold sortRequests at run
  split_ifs at run
  · split at run
    · cases run
    cases run
    refine ⟨?_, sort_by_lora_perm generations⟩
    have parts := (sort_by_lora_perm (ctxs.filter (fun req => !req.isLastContextChunk))).append
      (sort_by_lora_perm (ctxs.filter (·.isLastContextChunk)))
    refine parts.trans (perm_append_comm.trans ?_)
    exact filter_append_perm (fun req : LlmRequest => req.isLastContextChunk) ctxs
  · cases run
    exact ⟨sort_by_lora_perm ctxs, sort_by_lora_perm generations⟩

structure RespectsBudgets (sched : MicroBatchScheduler) (active : List LlmRequest) (inflight : List Nat)
    (maxBatchSize : Nat) (maxNumTokens : Option Nat) (contexts generations : List LlmRequest) : Prop where
  tokens : ∀ limit ∈ maxNumTokens, batchTokens contexts generations ≤ limit
  contextLength : ∀ limit ∈ sched.maxContextLength, ∀ req ∈ contexts, req.contextTokens ≤ limit
  chunk : ∀ req ∈ contexts, req.contextChunkSize ≤ req.getContextRemainingLength
  batchSize : contexts.length + generations.length ≤ maxBatchSize
  distinct : ((contexts ++ generations).map (·.requestId)).Nodup
  idle : ∀ req ∈ contexts ++ generations, req.requestId ∉ inflight
  schedulable : ∀ req ∈ contexts ++ generations, sched.schedulable req
  origin : ∀ req ∈ contexts ++ generations, ∃ given ∈ active, Rechunked given req
  beamWidth : ∀ a ∈ generations, ∀ b ∈ generations, a.getBeamWidthByIter = b.getBeamWidthByIter

theorem chunked_tokens_le {pending chunked : List LlmRequest} (same : Forall₂ Rechunked pending chunked)
    (phase : ∀ req ∈ pending, req.isContextInitState) :
    ((chunked.filter (0 < ·.contextChunkSize)).map contextTokens).sum ≤ totalCompute chunked := by
  have kept : ∀ req ∈ chunked, req.contextTokens = req.chunkCompute := by
    intro req mem
    obtain ⟨given, listed, size, rfl⟩ := forall2_source same mem
    exact context_tokens_eq (phase given listed)
  rw [totalCompute, ← map_congr_left kept]
  exact Sublist.sum_le_sum (filter_sublist.map _) fun _ _ => Nat.zero_le _

section
variable {s : Selection} {chunked : List LlmRequest} (same : List.Forall₂ Rechunked s.contextsToBeChunked chunked)

include same

theorem returned_ids : (((s.contextRequests ++ chunked.filter (0 < ·.contextChunkSize)) ++ s.generationRequests).map
      (·.requestId)).Sublist s.ids := by
  have ids : chunked.map (·.requestId) = s.contextsToBeChunked.map (·.requestId) := by
    refine (forall₂_eq_eq_eq ▸ forall₂_map_left_iff.mpr (forall₂_map_right_iff.mpr ?_) :)
    exact same.flip.imp fun _ _ step => by obtain ⟨size, rfl⟩ := step; rfl
  have kept : ((chunked.filter (0 < ·.contextChunkSize)).map (·.requestId)).Sublist
      (s.contextsToBeChunked.map (·.requestId)) := ids ▸ filter_sublist.map _
  simp only [Selection.ids, Selection.requests, map_append, append_assoc]
  exact (Sublist.refl _).append (kept.append (Sublist.refl _))

theorem returned_requests : ∀ req ∈ (s.contextRequests ++ chunked.filter (0 < ·.contextChunkSize)) ++ s.generationRequests,
      ∃ given ∈ s.requests, Rechunked given req := by
  intro req mem
  simp only [mem_append, mem_filter] at mem
  simp only [Selection.requests, mem_append]
  rcases mem with (context | ⟨listed, _⟩) | gen
  · exact ⟨req, .inl context, rechunked_refl req⟩
  · obtain ⟨given, src, step⟩ := forall2_source same listed
    exact ⟨given, .inr (.inl src), step⟩
  · exact ⟨req, .inr (.inr gen), rechunked_refl req⟩

end

open MicroBatchScheduler

theorem schedule_respects_budgets (sched : MicroBatchScheduler) (active : List LlmRequest) (inflight : List Nat)
    (maxBatchSize : Nat) (maxNumTokens : Option Nat) (contexts generations : List LlmRequest)
    (distinct : (active.map (·.requestId)).Nodup) (undrafted : ∀ req ∈ active, req.isContextInitState → req.numDraftTokens = 0)
    (batch : 1 ≤ maxBatchSize)
    (returned : sched.schedule active inflight maxBatchSize maxNumTokens = .ok (contexts, generations)) :
    RespectsBudgets sched active inflight maxBatchSize maxNumTokens contexts generations := by
  unfold schedule at returned
  rw [except_bind_ok] at returned
  obtain ⟨s, selected, returned⟩ := returned
  rw [except_bind_ok] at returned
  obtain ⟨chunked, sized, sorted⟩ := returned
  have inv := select_requests_inv active selection_start batch selected
  have drafts : ∀ req ∈ s.contextsToBeChunked, req.numDraftTokens = 0 := by
    intro req member
    obtain ⟨given, listed, size, rfl⟩ := inv.origin req
      (mem_append_right _ (mem_append_left _ member))
    exact undrafted given listed (show given.isContextInitState from inv.pending (given.setContextChunkSize size) member)
  have budget := size_contexts_within inv drafts sized
  obtain ⟨contextPerm, generationPerm⟩ := sort_requests_perm sorted
  have perm := contextPerm.append generationPerm
  have src := returned_requests budget.rechunked
  have ids := (perm.map (·.requestId)).subperm.trans (returned_ids budget.rechunked).subperm
  have tokens := chunked_tokens_le budget.rechunked inv.pending
  refine ⟨fun limit given => ?_, fun limit bound req member => ?_, fun req _ => req.chunk_le_remaining, ?_, ?_,
    fun req member => ?_, fun req member => ?_, fun req member => ?_, fun a left b right => ?_⟩
  · have used := inv.within limit given
    have paid := budget.total _ (Option.mem_map_of_mem _ given)
    have charged := inv.charged
    rw [batchTokens, (contextPerm.map _).sum_eq, (generationPerm.map _).sum_eq]
    simp only [batchTokens, map_append, sum_append] at charged ⊢
    omega
  · rcases mem_append.mp (contextPerm.mem_iff.mp member) with selected | chunk
    · exact inv.short limit bound req selected
    have listed := mem_of_mem_filter chunk
    obtain ⟨given, pending, size, rfl⟩ := forall2_source budget.rechunked listed
    have phase : (given.setContextChunkSize size).isContextInitState := inv.pending given pending
    rw [context_tokens_eq phase]
    exact budget.each limit bound _ listed
  · have count := ids.length_le
    have counted := inv.counted
    have bounded := inv.bounded
    simp only [Selection.ids, length_map, length_append] at count
    omega
  · obtain ⟨listed, same, sub⟩ := ids.trans inv.chosen
    exact same.nodup_iff.mp (sub.nodup distinct)
  · obtain ⟨given, listed, size, rfl⟩ := src req (perm.mem_iff.mp member)
    exact (inv.admissible given listed).2
  · obtain ⟨given, listed, size, rfl⟩ := src req (perm.mem_iff.mp member)
    exact (inv.admissible given listed).1
  · obtain ⟨given, listed, step⟩ := src req (perm.mem_iff.mp member)
    obtain ⟨origin, activeOrigin, first⟩ := inv.origin given listed
    exact ⟨origin, activeOrigin, rechunked_trans first step⟩
  · rw [inv.beams a (generationPerm.mem_iff.mp left), inv.beams b (generationPerm.mem_iff.mp right)]

theorem schedule_respects_budgets_two_chunks : RespectsBudgets
      { maxContextLength := some 8, ctxChunkConfig := some { chunkingPolicy := .equalProgress, chunkUnitSize := 4 } }
      [{ requestId := 1, promptLen := 10, estimatedReusableTokens := 4 },
        { requestId := 2, promptLen := 20 },
        { requestId := 3, promptLen := 3, state := .generationInProgress, numDraftTokens := 2 }] [] 3 (some 15)
      [{ requestId := 1, promptLen := 10, estimatedReusableTokens := 4, contextChunkSize := 8 },
        { requestId := 2, promptLen := 20, contextChunkSize := 4 }]
      [{ requestId := 3, promptLen := 3, state := .generationInProgress, numDraftTokens := 2 }] :=
  schedule_respects_budgets _ _ _ _ _ _ _ (by decide) (by decide) (by decide) rfl

end TrtLlm.Batch
