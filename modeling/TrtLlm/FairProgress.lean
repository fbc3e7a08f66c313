import TrtLlm.DraftFit

set_option autoImplicit false

namespace TrtLlm.Batch
open List TrtLlm.Lib LlmRequest

def Unreused (req : LlmRequest) : Prop := req.isFirstContextChunk → req.estimatedReusableTokens = 0

section Fairness
variable (capacity unit : Nat) (maxLength : Option Nat)

def LlmRequest.grant (req : LlmRequest) : Nat := min unit (req.getContextRemainingLength - req.contextChunkSize)

def Extendable (req : LlmRequest) : Prop :=
  req.contextChunkSize < req.getContextRemainingLength ∧ ∀ limit ∈ maxLength, req.contextChunkSize + req.grant unit ≤ limit

def Starved (total : Nat) (req : LlmRequest) : Prop := capacity < total + req.grant unit

def WholeOrUnits (req : LlmRequest) : Prop :=
  req.contextChunkSize = req.getContextRemainingLength ∨ unit ∣ req.contextChunkSize

def Close (behind ahead : LlmRequest) : Prop :=
  ahead.contextChunkSize ≤ behind.contextChunkSize + unit ∨
    ahead.contextChunkSize = ahead.getContextRemainingLength ∧
      ahead.contextChunkSize < behind.contextChunkSize + 2 * unit

-- Until the capacity first refuses a request, nobody is ahead of it after a round. Then only a rest shorter than
-- the refused unit can be granted to another.
def Fair (total : Nat) (behind ahead : LlmRequest) : Prop :=
  Extendable unit maxLength behind → ahead.contextChunkSize ≤ behind.contextChunkSize ∨
    Starved capacity unit total behind ∧ Close unit behind ahead

def Offered (start finish single : Nat) (req next : LlmRequest) : Prop :=
  ∃ spent, start ≤ spent ∧ let turn := equalProgressTurn (some capacity) unit maxLength spent req
    next = turn.1 ∧ spent + turn.2.1 ≤ finish ∧ turn.2.2 ≤ single

structure FairChunks (reqs : List LlmRequest) : Prop where
  unreused : ∀ req ∈ reqs, Unreused req
  whole : ∀ req ∈ reqs, WholeOrUnits unit req
  fair : ∀ behind ∈ reqs, ∀ ahead ∈ reqs, Fair capacity unit maxLength (totalCompute reqs) behind ahead

def Saturated (reqs : List LlmRequest) : Prop :=
  ∀ req ∈ reqs, Extendable unit maxLength req → Starved capacity unit (totalCompute reqs) req

end Fairness

variable {capacity unit start finish single : Nat} {maxLength : Option Nat} {req next behind ahead : LlmRequest}
  {reqs : List LlmRequest}

theorem unreused_policy_compute (unreused : Unreused req) (amount : Nat) : req.policyCompute amount = amount := by
  have none : req.policyReusable = 0 := by
    unfold policyReusable
    split
    · rw [unreused ‹_›, Nat.zero_min]
    · rfl
  rw [policyCompute, none, reuseAdjustedCompute, if_pos rfl]

theorem round_offers (total : Nat) (reqs : List LlmRequest) :
    let round := equalProgressPass (some capacity) unit maxLength total reqs
    total ≤ round.2.1 ∧ Forall₂ (Offered capacity unit maxLength total round.2.1 round.2.2) reqs round.1 := by
  induction reqs generalizing total with
  | nil => exact ⟨le_rfl, .nil⟩
  | cons req rest ih =>
    obtain ⟨grows, tail⟩ := ih (total + (equalProgressTurn (some capacity) unit maxLength total req).2.1)
    refine ⟨(Nat.le_add_right _ _).trans grows, .cons ⟨total, le_rfl, rfl, grows, Nat.le_add_right _ _⟩ (tail.imp ?_)⟩
    rintro _ _ ⟨spent, late, same, early, counted⟩
    exact ⟨spent, (Nat.le_add_right _ _).trans late, same, early, counted.trans (Nat.le_add_left _ _)⟩

section
variable (unreused : Unreused req) (offered : Offered capacity unit maxLength start finish single req next)

include unreused offered

theorem offered_cases : ∃ spent, start ≤ spent ∧
      (next = req ∧ spent ≤ finish ∧ (Extendable unit maxLength req → Starved capacity unit spent req) ∨
        next = req.setContextChunkSize (req.contextChunkSize + unit) ∧ req.grant unit ≤ single ∧
          spent + req.grant unit ≤ finish ∧ spent + req.grant unit ≤ capacity) := by
  obtain ⟨spent, late, same, early, counted⟩ := offered
  have inside : req.contextChunkSize ≤ req.getContextRemainingLength := req.chunk_le_remaining
  have reach : min (req.contextChunkSize + unit) req.getContextRemainingLength = req.contextChunkSize + req.grant unit := by
    unfold grant
    omega
  simp only [equalProgressTurn, unreused_policy_compute unreused, set_chunk_size, reach, Nat.add_sub_cancel_left] at same early counted
  refine ⟨spent, late, ?_⟩
  split_ifs at same early counted with refused
  · rw [set_chunk_set_chunk, set_own_chunk] at same
    refine .inl ⟨same, early, fun able => ?_⟩
    rcases (Bool.or_eq_true _ _).mp refused with unpaid | long
    · simpa [exceeds, Starved] using unpaid
    · cases long.symm.trans (exceeds_eq_false.mpr able.2)
  · rw [Bool.or_eq_true, not_or, Bool.not_eq_true, exceeds_eq_false] at refused
    exact .inr ⟨same, counted, early, refused.1 _ rfl⟩

theorem Offered.whole (whole : WholeOrUnits unit req) : WholeOrUnits unit next := by
  obtain ⟨_, _, ⟨rfl, _⟩ | ⟨rfl, _⟩⟩ := offered_cases unreused offered
  · exact whole
  rw [WholeOrUnits, set_chunk_size, set_chunk_remaining]
  rcases whole with full | units
  · exact .inl (by omega)
  · rcases Nat.le_total (req.contextChunkSize + unit) req.getContextRemainingLength with below | above
    · exact .inr (by rw [min_eq_left below]; exact Nat.dvd_add units (Nat.dvd_refl _))
    · exact .inl (min_eq_right above)

end

theorem extendable_before (able : Extendable unit maxLength (req.setContextChunkSize (req.contextChunkSize + unit))) :
    Extendable unit maxLength req ∧ req.contextChunkSize + unit < req.getContextRemainingLength := by
  obtain ⟨unfinished, short⟩ := able
  rw [set_chunk_size, set_chunk_remaining] at unfinished
  refine ⟨⟨by omega, fun limit bound => le_trans ?_ (short limit bound)⟩, by omega⟩
  simp only [grant, set_chunk_size, set_chunk_remaining]
  omega

theorem fair_round {other : LlmRequest} (given : Unreused behind) (also : Unreused ahead)
    (first : Offered capacity unit maxLength start finish single behind next)
    (second : Offered capacity unit maxLength start finish single ahead other)
    (fair : Fair capacity unit maxLength start behind ahead) : Fair capacity unit maxLength finish next other := by
  intro able
  obtain ⟨spent, late, ⟨rfl, early, reason⟩ | ⟨rfl, _, early, fits⟩⟩ := offered_cases given first
  · have starved := reason able
    have before := fair able
    obtain ⟨_, _, ⟨rfl, _⟩ | ⟨rfl, _⟩⟩ := offered_cases also second
    · unfold Starved Close at *
      omega
    · simp only [Starved, Close, grant, set_chunk_size, set_chunk_remaining] at *
      omega
  · obtain ⟨earlier, far⟩ := extendable_before able
    have before := fair earlier
    obtain ⟨_, _, ⟨rfl, _⟩ | ⟨rfl, _⟩⟩ := offered_cases also second
    all_goals
      simp only [Starved, Close, grant, set_chunk_size, set_chunk_remaining] at *
      omega

theorem round_fair (fair : FairChunks capacity unit maxLength reqs) :
    let round := equalProgressPass (some capacity) unit maxLength (totalCompute reqs) reqs
    round.2.1 = totalCompute round.1 ∧ FairChunks capacity unit maxLength round.1 ∧
      (0 < unit → round.2.2 = 0 → Saturated capacity unit maxLength round.1) := by
  intro round
  have spec := equal_progress_pass (some capacity) unit maxLength (totalCompute reqs) reqs
  have charged : round.2.1 = totalCompute round.1 := Nat.add_right_cancel (spec.charged.trans (Nat.add_comm _ _))
  obtain ⟨_, offers⟩ := @round_offers capacity unit maxLength (totalCompute reqs) reqs
  rw [charged] at offers
  refine ⟨charged, ⟨fun req mem => ?_, fun req mem => ?_, fun behind listed ahead mem => ?_⟩, ?_⟩
  · obtain ⟨given, src, _, rfl⟩ := forall2_source spec.rechunked mem
    exact fair.unreused given src
  · obtain ⟨given, src, offered⟩ := forall2_source offers mem
    exact offered.whole (fair.unreused given src) (fair.whole given src)
  · obtain ⟨first, src, moved⟩ := forall2_source offers listed
    obtain ⟨second, other, offered⟩ := forall2_source offers mem
    exact fair_round (fair.unreused first src) (fair.unreused second other) moved offered (fair.fair first src second other)
  · intro pos idle req mem able
    obtain ⟨given, src, offered⟩ := forall2_source offers mem
    obtain ⟨spent, _, ⟨rfl, early, reason⟩ | ⟨rfl, counted, _⟩⟩ := offered_cases (fair.unreused given src) offered
    · exact (reason able).trans_le (Nat.add_le_add_right early _)
    · have far := (extendable_before able).2
      rw [show round.2.2 = 0 from idle, grant] at counted
      omega

theorem loop_fair (pos : 0 < unit) {fuel total single : Nat} {result : List LlmRequest}
    (fair : FairChunks capacity unit maxLength reqs)
    (idle : single = 0 → Saturated capacity unit maxLength reqs) (counted : total = totalCompute reqs)
    (run : equalProgressLoop (some capacity) unit maxLength fuel total single reqs = some result) :
    FairChunks capacity unit maxLength result ∧ Saturated capacity unit maxLength result := by
  induction fuel generalizing total single reqs with
  | zero => cases run
  | succ fuel ih =>
    subst counted
    unfold equalProgressLoop at run
    split at run
    · obtain ⟨charged, next, saturated⟩ := round_fair fair
      exact ih next (saturated pos) charged run
    rename_i stopped
    cases run
    refine ⟨fair, ?_⟩
    by_cases none : single = 0
    · exact idle none
    · intro req _ able
      have full : capacity ≤ totalCompute result := by simpa [none] using stopped
      have unfinished := able.1
      unfold Starved grant
      omega

theorem unreused_total (unreused : ∀ req ∈ reqs, Unreused req) : totalCompute reqs = totalChunk reqs :=
  congrArg sum (map_congr_left fun req mem => unreused_policy_compute (unreused req mem) _)

theorem equal_progress_fair (capacity unit : Nat) (maxLength : Option Nat) (contexts : List LlmRequest)
    (positive : 0 < unit) (unreused : ∀ req ∈ contexts, Unreused req) : ∃ chunked,
    equalProgressChunks (some capacity) unit maxLength (contexts.map (·.setContextChunkSize 0)) = .ok chunked ∧
      totalChunk chunked ≤ capacity ∧
      (∀ req ∈ chunked, (∀ limit ∈ maxLength, req.contextChunkSize ≤ limit) ∧ WholeOrUnits unit req ∧
        (Extendable unit maxLength req → Starved capacity unit (totalChunk chunked) req)) ∧
      ∀ behind ∈ chunked, ∀ ahead ∈ chunked, Extendable unit maxLength behind → Close unit behind ahead := by
  have fresh : ∀ req ∈ contexts.map (·.setContextChunkSize 0), req.contextChunkSize = 0 := by simp
  obtain ⟨chunked, run⟩ := equal_progress_total (some capacity) unit maxLength (contexts.map (·.setContextChunkSize 0))
  have budget := equal_progress_chunks _ _ _ fresh run
  have start : FairChunks capacity unit maxLength (contexts.map (·.setContextChunkSize 0)) := by
    refine ⟨forall_mem_map.mpr unreused, fun req member => .inr ?_, fun _ _ ahead member _ => .inl ?_⟩
    · exact fresh req member ▸ Nat.dvd_zero _
    · exact fresh ahead member ▸ Nat.zero_le _
  have loop := run
  unfold equalProgressChunks at loop
  split at loop
  · rename_i looped
    cases loop
    obtain ⟨fair, saturated⟩ := loop_fair positive start (fun zero => absurd zero Nat.one_ne_zero)
      (total_compute_fresh _ fresh).symm looped
    have total := unreused_total fair.unreused
    refine ⟨chunked, run, total ▸ budget.total capacity rfl, fun req member => ⟨fun limit bound => ?_, ?_, ?_⟩, ?_⟩
    · exact (unreused_policy_compute (fair.unreused req member) _).symm.trans_le (budget.each limit bound req member)
    · exact fair.whole req member
    · exact total ▸ saturated req member
    · intro behind listed ahead member able
      rcases fair.fair behind listed ahead member able with level | ⟨_, close⟩
      · exact .inl (le_trans level (Nat.le_add_right _ _))
      · exact close
  · cases loop

def twoPrompts : List LlmRequest := [{ requestId := 0, promptLen := 3 }, { requestId := 1, promptLen := 10 }]

theorem two_prompts_fair : ∃ chunked,
    equalProgressChunks (some 3) 2 none (twoPrompts.map (·.setContextChunkSize 0)) = .ok chunked ∧ totalChunk chunked ≤ 3 ∧
      (∀ req ∈ chunked, (∀ limit ∈ none, req.contextChunkSize ≤ limit) ∧ WholeOrUnits 2 req ∧
        (Extendable 2 none req → Starved 3 2 (totalChunk chunked) req)) ∧
      ∀ behind ∈ chunked, ∀ ahead ∈ chunked, Extendable 2 none behind → Close 2 behind ahead :=
  equal_progress_fair 3 2 none twoPrompts (by decide) (by simp [twoPrompts, Unreused])

-- The first prompt takes a unit and then its last token, the second never gets a unit.
theorem short_prompt_ahead_by_more : ∃ ahead behind,
    equalProgressChunks (some 3) 2 none (twoPrompts.map (·.setContextChunkSize 0)) = .ok [ahead, behind] ∧
      Extendable 2 none behind ∧ ¬ ahead.contextChunkSize ≤ behind.contextChunkSize + 2 :=
  ⟨_, _, rfl, ⟨by decide, nofun⟩, by decide⟩

end TrtLlm.Batch
