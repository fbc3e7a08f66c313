import TrtLlm.ChunkBudget

set_option autoImplicit false

namespace TrtLlm.Batch
open List TrtLlm.Lib LlmRequest

def LlmRequest.shiftByEstimate (kvTokensPerBlock : Nat) (req : LlmRequest) : Option LlmRequest :=
  if req.isFirstContextChunk then req.setPrepopulatedPromptLen req.estimatedReusableTokens kvTokensPerBlock else some req

def LlmRequest.lastDrafts (req : LlmRequest) : Nat := if req.isLastContextChunk then req.numDraftTokens else 0

def draftedTokens (contexts : List LlmRequest) : Nat :=
  (contexts.map fun req => req.contextChunkSize + req.lastDrafts).sum

-- A last chunk that still has drafts is not longer than the limit.
def LastFits (maxContextLength : Option Nat) (req : LlmRequest) : Prop :=
  req.isLastContextChunk → req.numDraftTokens ≠ 0 → ∀ limit ∈ maxContextLength, req.contextChunkSize ≤ limit

-- Where the reused prefix completes a first chunk, the chunk starts the prompt and its drafts were trimmed or are
-- none.
def CompletionTrimmed (req : LlmRequest) : Prop :=
  req.isFirstContextChunk → req.estimatedReusableTokens ≠ 0 →
    req.getContextRemainingLength ≤ req.estimatedReusableTokens + req.contextChunkSize →
      req.contextCurrentPosition = 0 ∧ (req.isLastContextChunk ∨ req.numDraftTokens = 0)

def Trimmed (given result : LlmRequest) : Prop :=
  ∃ count, count ≤ given.numDraftTokens ∧ result = { given with numDraftTokens := count }

variable {req result : LlmRequest} {contexts : List LlmRequest}

-- The prefix moves the chunk behind itself; it is the last one if it reaches the end of the prompt.
structure Moved (prepopulated : Nat) (req result : LlmRequest) : Prop where
  prompt : prepopulated < req.promptLen
  same : result.state = req.state ∧ result.numDraftTokens = req.numDraftTokens
  ends : (result.isLastContextChunk → prepopulated + req.contextChunkSize < req.promptLen → req.isLastContextChunk)
  chunk : if prepopulated + req.contextChunkSize < req.promptLen then result.contextChunkSize ≤ req.contextChunkSize
    else result.contextChunkSize = req.promptLen - prepopulated

theorem prepopulated_moved {prepopulated kvTokensPerBlock : Nat} (some_reused : prepopulated ≠ 0)
    (done : req.setPrepopulatedPromptLen prepopulated kvTokensPerBlock = some result) : Moved prepopulated req result := by
  unfold setPrepopulatedPromptLen at done
  split at done
  · rename_i prompt
    dsimp only at done
    split at done
    · rename_i short
      have below := Nat.div_mul_le_self (prepopulated + req.contextChunkSize) kvTokensPerBlock
      split at done
      · cases done
        refine ⟨prompt, ⟨rfl, rfl⟩, fun last _ => ?_, ?_⟩
        · simp only [isLastContextChunk, isDisaggGenerationInitState, isDisaggGenerationTransmissionComplete, Bool.or_eq_true,
            decide_eq_true_eq] at last ⊢
          exact .inl (last.resolve_right (by omega))
        · rw [if_pos short]
          dsimp only
          omega
      · cases done
    · rename_i long
      split at done
      · cases done
        refine ⟨prompt, ⟨rfl, rfl⟩, fun _ short => absurd short long, ?_⟩
        rw [if_neg long]
        dsimp only
        omega
      · cases done
  · cases done

theorem shift_bounds {kvTokensPerBlock : Nat} (trimmed : CompletionTrimmed req)
    (moved : req.shiftByEstimate kvTokensPerBlock = some result) :
    result.contextChunkSize ≤ req.chunkCompute ∧ result.lastDrafts ≤ req.lastDrafts := by
  unfold shiftByEstimate at moved
  split at moved
  · rename_i first
    have compute : req.chunkCompute = reuseAdjustedCompute req.contextChunkSize
        (min req.estimatedReusableTokens req.getContextRemainingLength) req.getContextRemainingLength := by
      rw [chunkCompute, policyCompute, policyReusable, if_pos first]
    by_cases none_reused : req.estimatedReusableTokens = 0
    · rw [none_reused, setPrepopulatedPromptLen] at moved
      rw [compute, none_reused, Nat.zero_min, reuseAdjustedCompute, if_pos rfl]
      split at moved
      · cases moved
        exact ⟨le_rfl, le_rfl⟩
      · cases moved
    have shift := prepopulated_moved none_reused moved
    have prompt := shift.prompt
    have chunk := shift.chunk
    have complete := trimmed first none_reused
    rw [compute, reuseAdjustedCompute]
    unfold lastDrafts
    rw [shift.same.2]
    unfold getContextRemainingLength at complete ⊢
    refine ⟨by split_ifs at chunk ⊢ <;> omega, ?_⟩
    by_cases was : req.isLastContextChunk = true
    · rw [if_pos was]
      split <;> omega
    by_cases short : req.estimatedReusableTokens + req.contextChunkSize < req.promptLen
    · rw [if_neg fun last => was (shift.ends last short)]
      exact Nat.zero_le _
    · rw [((complete (by omega)).2.resolve_left was)]
      split <;> omega
  · rename_i later
    cases moved
    rw [chunkCompute, policyCompute, policyReusable, if_neg later, reuseAdjustedCompute, if_pos rfl]
    exact ⟨le_rfl, le_rfl⟩

section Fit
variable {capacity maxContextLength : Option Nat} {unit : Nat} {numCtxTokens : Int}

theorem draft_room_bounds (pos : 0 < unit) (short : ∀ limit ∈ maxContextLength, req.contextChunkSize ≤ limit)
    (paid : ∀ limit ∈ capacity, numCtxTokens ≤ limit) :
    0 ≤ draftRoom capacity unit maxContextLength numCtxTokens req ∧
      ∀ limit ∈ capacity, numCtxTokens + draftRoom capacity unit maxContextLength numCtxTokens req ≤ limit := by
  have remainder := Nat.mod_lt req.contextChunkSize pos
  unfold draftRoom
  cases capacity <;> cases maxContextLength <;> simp [boundedRoom] at short paid ⊢ <;> split_ifs <;> omega

theorem drop_draft_tokens_ok {room : Int} (enough : 0 ≤ room) :
    ∃ fitted, dropDraftTokens room req = .ok fitted ∧ Trimmed req fitted ∧ (fitted.numDraftTokens : Int) ≤ room := by
  unfold dropDraftTokens
  split
  · refine ⟨_, if_neg (by omega), ⟨_, Nat.sub_le _ _, rfl⟩, ?_⟩
    dsimp only
    omega
  · exact ⟨req, rfl, ⟨req.numDraftTokens, le_rfl, rfl⟩, by omega⟩

-- The count holds the chunks of the batch and the drafts kept so far.
theorem fit_draft_tokens_ok (pos : 0 < unit)
    (short : ∀ req ∈ contexts, LastFits maxContextLength req) (paid : ∀ limit ∈ capacity, numCtxTokens ≤ limit) :
    ∃ fitted, fitDraftTokensFrom capacity unit maxContextLength numCtxTokens contexts = .ok fitted ∧
      Forall₂ Trimmed contexts fitted ∧ ∀ limit ∈ capacity, numCtxTokens + ((fitted.map lastDrafts).sum : Nat) ≤ limit := by
  induction contexts generalizing numCtxTokens with
  | nil => exact ⟨[], rfl, .nil, by simpa using paid⟩
  | cons req rest ih =>
    obtain ⟨head, later⟩ := forall_mem_cons.mp short
    unfold fitDraftTokensFrom
    split
    · rename_i drafted
      obtain ⟨enough, inside⟩ := draft_room_bounds pos (head drafted.1 drafted.2) paid
      obtain ⟨kept, dropped, trimmed, fits⟩ := @drop_draft_tokens_ok req _ enough
      dsimp only
      generalize draftRoom capacity unit maxContextLength numCtxTokens req = room at *
      have counted : ∀ limit ∈ capacity,
          (if capacity.isSome then numCtxTokens + room else numCtxTokens) = numCtxTokens + room :=
        fun limit bound => if_pos (Option.isSome_of_mem bound)
      obtain ⟨others, run, tail, total⟩ := ih later fun limit bound => (counted limit bound).trans_le (inside limit bound)
      refine ⟨kept :: others, by rw [dropped, run]; rfl, .cons trimmed tail, fun limit bound => ?_⟩
      have drafts : kept.lastDrafts ≤ kept.numDraftTokens := by
        unfold lastDrafts
        split <;> omega
      have rest := total limit bound
      rw [counted limit bound] at rest
      rw [map_cons, sum_cons]
      omega
    · rename_i skipped
      obtain ⟨others, run, tail, total⟩ := ih later paid
      refine ⟨req :: others, by rw [run]; rfl, .cons ⟨req.numDraftTokens, le_rfl, rfl⟩ tail, fun limit bound => ?_⟩
      have none : req.lastDrafts = 0 := by
        unfold lastDrafts
        split
        · exact not_not.mp fun some => skipped ⟨‹_›, some⟩
        · rfl
      rw [map_cons, sum_cons, none, Nat.zero_add]
      exact total limit bound

theorem fit_draft_tokens_short {fitted : List LlmRequest}
    (done : fitDraftTokensFrom capacity unit maxContextLength numCtxTokens contexts = .ok fitted) :
    ∀ req ∈ contexts, LastFits maxContextLength req := by
  induction contexts generalizing numCtxTokens fitted with
  | nil => exact forall_mem_nil _
  | cons req rest ih =>
    unfold fitDraftTokensFrom at done
    split at done
    · dsimp only at done
      obtain ⟨kept, dropped, done⟩ := except_bind_ok.mp done
      obtain ⟨others, run, _⟩ := except_bind_ok.mp done
      refine forall_mem_cons.mpr ⟨fun _ _ limit bound => ?_, ih run⟩
      -- A negative room would discard more drafts than there are.
      have enough : 0 ≤ draftRoom capacity unit maxContextLength numCtxTokens req := by
        unfold dropDraftTokens discardDraftTokens at dropped
        split at dropped
        · split at dropped
          · cases dropped
          · omega
        · omega
      cases bound
      unfold draftRoom boundedRoom at enough
      cases capacity <;> simp only [le_min_iff] at enough <;> omega
    · rename_i skipped
      obtain ⟨others, run, _⟩ := except_mapped_ok.mp done
      exact forall_mem_cons.mpr ⟨fun last drafted => absurd ⟨last, drafted⟩ skipped, ih run⟩

end Fit

theorem drafted_tokens_shifted {kvTokensPerBlock : Nat} {given fitted shifted : List LlmRequest}
    (trimmed : Forall₂ Trimmed given fitted)
    (moved : Forall₂ (fun req next => req.shiftByEstimate kvTokensPerBlock = some next) fitted shifted)
    (complete : ∀ req ∈ given, CompletionTrimmed req) :
    draftedTokens shifted ≤ totalCompute given + (fitted.map lastDrafts).sum := by
  induction trimmed generalizing shifted with
  | nil =>
    cases moved
    exact le_rfl
  | @cons req kept given fitted same _ ih =>
    obtain ⟨count, fewer, rfl⟩ := same
    cases moved with
    | @cons _ next _ shifted step moved =>
      obtain ⟨head, others⟩ := forall_mem_cons.mp complete
      have still : CompletionTrimmed { req with numDraftTokens := count } := fun first reused ends => by
        obtain ⟨start, last | none_left⟩ := head first reused ends
        · exact ⟨start, .inl last⟩
        · exact ⟨start, .inr (by dsimp only; omega)⟩
      obtain ⟨chunk, drafts⟩ := shift_bounds still step
      have rest := ih moved others
      have compute : LlmRequest.chunkCompute { req with numDraftTokens := count } = req.chunkCompute := rfl
      simp only [draftedTokens, map_cons, sum_cons, total_compute_cons] at rest ⊢
      omega

theorem drafts_fit_iff (config : ContextChunkingConfig) (capacity maxContextLength : Option Nat)
    (kvTokensPerBlock : Nat) (contexts chunked aligned : List LlmRequest) (positive : 0 < config.chunkUnitSize)
    (policy : policyChunkSizes config.chunkingPolicy capacity config.chunkUnitSize maxContextLength
      (contexts.map (·.setContextChunkSize 0)) = .ok chunked)
    (snapshots : alignIfSnapshots config chunked = .ok aligned) :
    ((∃ fitted, fitDraftTokens capacity config.chunkUnitSize maxContextLength aligned = .ok fitted) ↔
      ∀ req ∈ aligned, LastFits maxContextLength req) ∧
    ((∀ req ∈ aligned, CompletionTrimmed req) → ∀ fitted shifted,
      fitDraftTokens capacity config.chunkUnitSize maxContextLength aligned = .ok fitted →
      Forall₂ (fun req next => req.shiftByEstimate kvTokensPerBlock = some next) fitted shifted →
        ∀ limit ∈ capacity, draftedTokens shifted ≤ limit) := by
  have chosen := policy_within_budget _ _ _ _ _ _ (by simp) policy
  have budget := within_budget_shrunk chosen (align_if_snapshots_shrunk snapshots)
  have fits := fun short => @fit_draft_tokens_ok aligned capacity maxContextLength config.chunkUnitSize _ positive short
    fun limit bound => Int.ofNat_le.mpr (budget.total limit bound)
  refine ⟨⟨fun ⟨fitted, run⟩ => fit_draft_tokens_short run, fun short => ?_⟩,
    fun complete fitted shifted run moved limit bound => ?_⟩
  · obtain ⟨fitted, run, _⟩ := fits short
    exact ⟨fitted, run⟩
  · obtain ⟨again, same, trimmed, total⟩ := fits (fit_draft_tokens_short run)
    cases run.symm.trans same
    have paid := total limit bound
    have shift := drafted_tokens_shifted trimmed moved complete
    omega

def draftedRequest (promptLen reusable drafts : Nat) : LlmRequest :=
  { requestId := 0, promptLen, estimatedReusableTokens := reusable, numDraftTokens := drafts
    prompt_le_tokens := le_rfl, position_le_prompt := Nat.zero_le _, chunk_le_remaining := Nat.zero_le _ }

-- A prompt with two drafts, and one of which eight tokens are reused.
theorem reused_prompt_fits : ∃ fitted,
    fitDraftTokens (some 10) 4 (some 8)
        [(draftedRequest 6 0 2).setContextChunkSize 6, (draftedRequest 10 8 0).setContextChunkSize 10] =
      .ok fitted ∧ ∀ shifted, Forall₂ (fun req next => req.shiftByEstimate 4 = some next) fitted shifted →
        ∀ limit ∈ some 10, draftedTokens shifted ≤ limit := by
  obtain ⟨total, budget⟩ := drafts_fit_iff { chunkingPolicy := .firstComeFirstServed, chunkUnitSize := 4 } (some 10) (some 8) 4
    [draftedRequest 6 0 2, draftedRequest 10 8 0] _ _ (by decide) rfl rfl
  obtain ⟨fitted, run⟩ := total.mpr (by
    refine forall_mem_cons.mpr ⟨fun _ _ limit bound => ?_, forall_mem_singleton.mpr fun _ drafted => absurd rfl drafted⟩
    cases bound
    decide)
  refine ⟨fitted, run, fun shifted => budget (forall_mem_cons.mpr ⟨fun _ reused => absurd rfl reused, ?_⟩) fitted shifted run⟩
  exact forall_mem_singleton.mpr fun _ _ _ => ⟨rfl, .inl rfl⟩

-- Ten tokens with eight reused pass a limit of four on what is computed; the room left is four less ten. And a chunk of
-- four that the reused prefix makes the last one comes with drafts that nothing has trimmed.
theorem reused_chunk_discards_too_many :
    setCtxRequestsChunkSize { chunkingPolicy := .firstComeFirstServed, chunkUnitSize := 4 } (some 10) (some 4)
      [draftedRequest 10 8 2] = .error (.discardsMissingDraftTokens 8 2) ∧
    ∃ fitted shifted, setCtxRequestsChunkSize { chunkingPolicy := .equalProgress, chunkUnitSize := 4 } (some 4) (some 4)
        [draftedRequest 8 4 3] = .ok fitted ∧ Forall₂ (fun req next => req.shiftByEstimate 4 = some next) fitted shifted ∧
      draftedTokens shifted = 7 := by
  refine ⟨by decide, _, _, rfl, .cons rfl .nil, rfl⟩

end TrtLlm.Batch
