import TrtLlm.Lib.Runs
import TrtLlm.V2.PageTableCommit

set_option autoImplicit false

namespace TrtLlm.V2.KVCache
open TrtLlm.Lib

section Resize
variable (cache next : KVCache) (capacity history : Nat)

theorem resized_shaped (resized : Resized cache next capacity history) (flagged : Flagged cache)
    (tokens : cache.numCommittedTokens ≤ history)
    (blocks_le : cache.numCommittedBlocks ≤ cache.numCommittedTokens / cache.tokensPerBlock)
    (blocks_eq : cache.commitState = .allowed → cache.numCommittedBlocks = cache.numCommittedTokens / cache.tokensPerBlock)
    (resumed : cache.neverResumed = false) (stopped : cache.commitState ≠ .virtualStop) : Shaped next := by
  have count := resized.blocks
  have flags := resized.flags
  have fits := resized.fits
  have active := resized.active
  obtain ⟨cols, committed, frame⟩ := resized.frame
  have never : next.neverResumed = false := by rw [frame, resumed]
  have blocks_same : next.numCommittedBlocks = cache.numCommittedBlocks := by rw [frame]
  refine ⟨by rw [count, frame], by rw [frame]; exact fits, by rw [frame]; exact tokens, ?_,
    by rw [frame]; exact blocks_le, by rw [frame]; exact blocks_eq, ?_, ?_, by rw [frame]; exact stopped⟩
  · intro ord inside
    rw [flags ord inside, never, Bool.false_or, blocks_same]
    by_cases existing : ord < cache.numBlocks
    · exact flagged.flags ord existing
    have above := flagged.committed_le
    rw [is_committed_outside (not_lt.mp existing)]
    symm
    rw [decide_eq_false_iff_not]
    omega
  · rw [never]
    exact nofun
  · rw [frame]
    simp [active]

end Resize

variable (cache next : KVCache)

theorem active_resumed (shaped : Shaped cache) (active : cache.status = .active) : cache.neverResumed = false := by
  by_contra never
  have idle := (shaped.fresh (by simpa using never)).1
  rw [active] at idle
  cases idle

-- resize and commit may only move the scratch range over blocks in a way that agrees with their pages.
def CallKeeps (cache : KVCache) : Call → Prop
  | .resume _ => True
  | .suspend => True
  | .resize newCapacity newHistory granted =>
    let capacity := newCapacity.getD cache.capacity
    let history := newHistory.getD cache.historyLength
    cache.goesThrough capacity history granted = true → Keeps cache capacity history (Publishing cache) cache.numCommittedBlocks
  | .commit numTokens outcomes =>
    let tokens := cache.numCommittedTokens + numTokens
    numTokens = 0 ∨ Keeps cache cache.capacity (max cache.historyLength tokens)
        (outcomes.any CommitOutcome.isRefused = false) (tokens / cache.tokensPerBlock)

instance (cache : KVCache) : Decidable (Publishing cache) :=
  inferInstanceAs (Decidable (_ ∧ _))

instance (cache : KVCache) (capacity history blocks : Nat) (publishing : Prop) [Decidable publishing]
    (column : Column) (ordinal : Nat) :
    Decidable (KeepsBlock cache capacity history publishing blocks column ordinal) :=
  inferInstanceAs (Decidable ((_ → _ → (_ ↔ _)) ∧ (_ → _ → _ → _ ∧ _)))

instance (cache : KVCache) (capacity history blocks : Nat) (publishing : Prop) [Decidable publishing] :
    Decidable (Keeps cache capacity history publishing blocks) :=
  inferInstanceAs (Decidable (∀ column ∈ cache.columns, ∀ ordinal < divUp capacity cache.tokensPerBlock,
    KeepsBlock cache capacity history publishing blocks column ordinal))

instance (cache : KVCache) : ∀ call, Decidable (CallKeeps cache call)
  | .resume _ => inferInstanceAs (Decidable True)
  | .suspend => inferInstanceAs (Decidable True)
  | .resize _ _ _ => inferInstanceAs (Decidable (_ → Keeps cache _ _ _ _))
  | .commit _ _ => inferInstanceAs (Decidable (_ ∨ Keeps cache _ _ _ _))

theorem resize_exact (shaped : Shaped cache)
    (sane : cache.allPages cache.sanePage = true) {newCapacity newHistory : Option Nat} {granted : Bool}
    (res : cache.resize newCapacity newHistory granted = some next) : Shaped next ∧
      (next.allPages next.sanePage = true ↔ CallKeeps cache (.resize newCapacity newHistory granted)) := by
  rcases resize_cases shaped.blocks res with
    ⟨rfl, blocked⟩ | ⟨resized, through⟩
  · refine ⟨shaped, ?_⟩
    simp only [CallKeeps, blocked, sane, Bool.false_eq_true, false_implies]
  have flagged := flagged_of_shaped shaped resized.active
  refine ⟨resized_shaped cache next _ _ resized flagged (le_trans shaped.tokens_le resized.grows)
    shaped.blocks_le shaped.blocks_eq (active_resumed cache shaped resized.active) shaped.stopped, ?_⟩
  rw [resized_exact resized flagged (loose_of_sane sane)]
  simp only [CallKeeps, through, true_implies]

theorem extended_loose (numTokens : Nat) (loose : cache.allPages cache.loosePage = true) :
    (cache.extendTokens numTokens).allPages (cache.extendTokens numTokens).loosePage = true := by
  rw [all_pages_iff] at loose ⊢
  intro col mem ord inside
  have before := loose col mem ord inside
  by_cases stale : ord ∈ cache.staleRange col.lifeCycle cache.historyLength
  · by_cases settled : cache.isCommitted ord = true ∨ cache.commitState ≠ .allowed
    · rw [loosePage, (@sane_dropped (cache.extendTokens numTokens) _ _ _ stale settled).mpr
        (loose_dropped stale settled before), Bool.true_or]
    · rw [@loose_pending (cache.extendTokens numTokens) _ _ _ stale settled]
      exact (loose_pending stale settled).mp before
  · rw [@loose_live (cache.extendTokens numTokens) _ _ _ stale]
    rw [loose_live stale] at before
    unfold sanePage at before ⊢
    rw [if_neg stale] at before
    exact (if_neg stale).trans before

theorem keeps_committed {cache mid : KVCache} {refused : Bool} (count history tokens : Nat)
    (committed : Committed cache mid refused count) (published : 0 < cache.numCommittedTokens)
    (size : cache.numBlocks = mid.numBlocks) (total : refused = false → cache.numCommittedBlocks + count = tokens) :
    Keeps mid mid.capacity history (Publishing mid) mid.numCommittedBlocks ↔
      Keeps cache cache.capacity history (refused = false) tokens := by
  obtain ⟨_, _, _, _, frame⟩ := committed.frame
  have publishing : Publishing mid ↔ refused = false := by
    have st := committed.state
    have same : mid.numCommittedTokens = cache.numCommittedTokens := by rw [frame]
    unfold Publishing
    rw [st, same]
    cases refused <;> simp [published]
  obtain ⟨change, ⟨image, cols, pages⟩, unchanged⟩ := committed.rewritten
  have blocks := committed.blocks_eq
  have block_iff : ∀ col ∈ cache.columns, ∀ ord,
      (KeepsBlock mid mid.capacity history (Publishing mid) mid.numCommittedBlocks (image col) ord ↔
        KeepsBlock cache cache.capacity history (refused = false) tokens col ord) := by
    intro col mem ord
    obtain ⟨life, page⟩ := pages col mem
    have stale_same : mid.staleRange col.lifeCycle history = cache.staleRange col.lifeCycle history := by
      rw [frame]
      rfl
    have scratch_same : ∀ length limit, mid.scratchRange col.lifeCycle length limit =
        cache.scratchRange col.lifeCycle length limit := by
      rw [frame]
      exact fun _ _ => rfl
    have history_same : mid.historyLength = cache.historyLength := by rw [frame]
    have capacity_same : mid.capacity = cache.capacity := by rw [frame]
    unfold KeepsBlock
    rw [life, stale_same, scratch_same, scratch_same, history_same, capacity_same, publishing, size]
    apply and_congr_right
    intro _
    cases refused with
    | true => simp
    | false =>
      rw [blocks rfl, total rfl]
      apply imp_congr_right
      intro kept
      apply imp_congr_right
      intro above
      apply imp_congr_right
      intro _
      apply and_congr_right
      intro inside
      rw [page ord inside, unchanged rfl _ _ _ (by rw [blocks rfl, total rfl]; exact above)]
  have unit_same : divUp mid.capacity mid.tokensPerBlock = divUp cache.capacity cache.tokensPerBlock := by
    rw [frame]
  unfold Keeps
  rw [cols, unit_same]
  simp only [List.forall_mem_map]
  exact forall₂_congr fun col mem => forall₂_congr fun ord _ => block_iff col mem ord

theorem commit_cases (shaped : Shaped cache) {numTokens : Nat} {outcomes : List CommitOutcome} (some_tokens : numTokens ≠ 0)
    (res : cache.commit numTokens outcomes = some next) : cache.status = .active ∧ cache.commitState = .allowed ∧
      outcomes.length = (cache.numCommittedTokens + numTokens) / cache.tokensPerBlock - cache.numCommittedBlocks ∧
      ∃ mid, (cache.extendTokens numTokens).commitBlocks outcomes = some mid ∧ mid.commitHistory = some next := by
  unfold commit at res
  rw [if_neg some_tokens] at res
  split at res
  case isTrue => cases res
  case isFalse open_state =>
    simp only [not_or, ne_eq, not_not] at open_state
    obtain ⟨active, not_user⟩ := open_state
    have allowed : cache.commitState = .allowed := by
      have not_virtual := shaped.stopped
      cases st : cache.commitState <;> simp_all
    rw [if_neg shaped.stopped] at res
    split at res
    case isTrue => cases res
    case isFalse enough =>
      cases committing : (cache.extendTokens numTokens).commitBlocks outcomes with
      | none =>
        rw [committing] at res
        cases res
      | some mid =>
        rw [committing] at res
        exact ⟨active, allowed, not_not.mp enough, mid, rfl, res⟩

theorem commit_history_resized (active : cache.status = .active) (fits : cache.historyLength ≤ cache.capacity)
    (blocks : cache.numBlocks = divUp cache.capacity cache.tokensPerBlock) (res : cache.commitHistory = some next) :
    Resized cache next cache.capacity (max cache.historyLength cache.numCommittedTokens) := by
  unfold commitHistory at res
  split at res
  · next behind =>
    rw [max_eq_right (le_of_lt behind)]
    rcases resize_cases blocks res with
      ⟨_, blocked⟩ | ⟨resized, _⟩
    · simp [goesThrough] at blocked
    · exact resized
  · next behind =>
    cases res
    rw [max_eq_left (not_lt.mp behind)]
    refine ⟨active, le_refl _, fits, ?_, ⟨id, by simp, fun col _ => ⟨rfl, fun ord inside => ?_⟩⟩, blocks,
      fun _ _ => rfl, ⟨_, _, rfl⟩⟩
    · unfold scratchAllows
      cases cache.swaScratchReuse <;> simp
    · simp [resizePage, inside]

theorem commit_exact (shaped : Shaped cache)
    (sane : cache.allPages cache.sanePage = true) {numTokens : Nat} {outcomes : List CommitOutcome}
    (some_tokens : numTokens ≠ 0) (res : cache.commit numTokens outcomes = some next) : next.status = .active ∧ Shaped next ∧
      (next.allPages next.sanePage = true ↔ CallKeeps cache (.commit numTokens outcomes)) := by
  obtain ⟨active, allowed, enough, mid, committing, finishing⟩ :=
    commit_cases cache next shaped some_tokens res
  have flagged := flagged_of_shaped shaped active
  have committed := @commit_blocks_committed (cache.extendTokens numTokens) mid outcomes active allowed
    ⟨flagged.blocks, flagged.committed_le, flagged.flags⟩
    (extended_loose cache numTokens (loose_of_sane sane)) committing
  have total : cache.numCommittedBlocks + outcomes.length =
      (cache.numCommittedTokens + numTokens) / cache.tokensPerBlock := by
    have more : cache.numCommittedTokens / cache.tokensPerBlock ≤
        (cache.numCommittedTokens + numTokens) / cache.tokensPerBlock := Nat.div_le_div_right (by omega)
    have start := shaped.blocks_eq allowed
    omega
  have st := committed.state
  have most : mid.numCommittedBlocks ≤ cache.numCommittedBlocks + outcomes.length := committed.blocks_le
  have equal : outcomes.any CommitOutcome.isRefused = false →
      mid.numCommittedBlocks = cache.numCommittedBlocks + outcomes.length := committed.blocks_eq
  obtain ⟨cols, flags, other, blocks, frame⟩ := committed.frame
  have resized := commit_history_resized mid next (by rw [frame]; exact active)
    (by rw [frame]; exact shaped.history_le) committed.flagged.blocks finishing
  have size : (cache.extendTokens numTokens).numBlocks = mid.numBlocks := by
    rw [committed.flagged.blocks, frame]
    exact shaped.blocks
  have tokens_same : mid.numCommittedTokens = cache.numCommittedTokens + numTokens := by rw [frame]; rfl
  have unit_same : mid.tokensPerBlock = cache.tokensPerBlock := by rw [frame]; rfl
  have history_same : mid.historyLength = cache.historyLength := by rw [frame]; rfl
  refine ⟨?_, ?_, ?_⟩
  · obtain ⟨_, _, resized_frame⟩ := resized.frame
    rw [resized_frame]
    exact resized.active
  · refine resized_shaped mid next _ _ resized committed.flagged (le_max_right _ _) ?_ ?_ ?_ ?_
    · rw [tokens_same, unit_same, ← total]
      exact most
    · intro still
      have not_refused : outcomes.any CommitOutcome.isRefused = false := by
        by_contra refused
        rw [st, if_pos (by simpa using refused)] at still
        cases still
      rw [tokens_same, unit_same, ← total]
      exact equal not_refused
    · rw [frame]
      exact active_resumed cache shaped active
    · rw [st]
      split <;> exact nofun
  · rw [resized_exact resized committed.flagged committed.loose, keeps_committed _ _
        ((cache.numCommittedTokens + numTokens) / cache.tokensPerBlock) committed
        (Nat.add_pos_right _ (Nat.pos_of_ne_zero some_tokens)) size (fun _ => total),
      history_same, tokens_same]
    simp only [CallKeeps, some_tokens, false_or]
    exact Iff.rfl

end TrtLlm.V2.KVCache
