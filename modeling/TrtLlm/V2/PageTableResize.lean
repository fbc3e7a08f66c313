import TrtLlm.V2.PageTable

set_option autoImplicit false

namespace TrtLlm.V2.KVCache

section Sane
variable {cache : KVCache} {lifeCycle : AttnLifeCycle} {ordinal : Nat} {page : BlockPage}

theorem sane_dropped (stale : ordinal ∈ cache.staleRange lifeCycle cache.historyLength)
    (settled : cache.isCommitted ordinal = true ∨ cache.commitState ≠ .allowed) :
    cache.sanePage lifeCycle ordinal page = true ↔ page = .none := by
  simp [sanePage, stale, settled]

theorem sane_held (stale : ordinal ∈ cache.staleRange lifeCycle cache.historyLength)
    (pending : ¬(cache.isCommitted ordinal = true ∨ cache.commitState ≠ .allowed)) :
    cache.sanePage lifeCycle ordinal page = true ↔ page = .holder false ∨ (page = .none ∧ cache.numCommittedTokens = 0) := by
  simp [sanePage, stale, pending]

theorem sane_scratch (live : ordinal ∉ cache.staleRange lifeCycle cache.historyLength)
    (scratch : ordinal ∈ cache.scratchRange lifeCycle cache.historyLength cache.capacity) :
    cache.sanePage lifeCycle ordinal page = true ↔ page = .none := by
  simp [sanePage, live, scratch]

theorem sane_owned (live : ordinal ∉ cache.staleRange lifeCycle cache.historyLength)
    (normal : ordinal ∉ cache.scratchRange lifeCycle cache.historyLength cache.capacity) :
    cache.sanePage lifeCycle ordinal page = true ↔ page = cache.ownedPage ordinal := by
  simp [sanePage, live, normal]

end Sane

variable (cache : KVCache)

-- sanePage without its demand on the committed tokens, between taking and placing them in commit().
def loosePage (lifeCycle : AttnLifeCycle) (ordinal : Nat) (page : BlockPage) : Bool :=
  cache.sanePage lifeCycle ordinal page ||
    (decide (ordinal ∈ cache.staleRange lifeCycle cache.historyLength) && !cache.isCommitted ordinal &&
      decide (cache.commitState = .allowed) && decide (page = .none))

theorem loose_of_sane {cache : KVCache} (sane : cache.allPages cache.sanePage = true) :
    cache.allPages cache.loosePage = true := by
  rw [all_pages_iff] at sane ⊢
  intro col mem ordinal inside
  simp [loosePage, sane col mem ordinal inside]

variable (capacity history : Nat)

-- The kept blocks stay on their side of the scratch range, and while tokens are published every stale block not
-- committed by then has a page.
def KeepsBlock (publishing : Prop) (blocks : Nat) (column : Column) (ordinal : Nat) : Prop :=
  (ordinal < cache.numBlocks → ordinal ∉ cache.staleRange column.lifeCycle history →
    (ordinal ∈ cache.scratchRange column.lifeCycle cache.historyLength cache.capacity ↔
      ordinal ∈ cache.scratchRange column.lifeCycle history capacity)) ∧
  (publishing → blocks ≤ ordinal → ordinal ∈ cache.staleRange column.lifeCycle history →
    ordinal < cache.numBlocks ∧ column.page ordinal ≠ .none)

def Keeps (publishing : Prop) (blocks : Nat) : Prop :=
  ∀ column ∈ cache.columns, ∀ ordinal < divUp capacity cache.tokensPerBlock,
    KeepsBlock cache capacity history publishing blocks column ordinal

def Publishing : Prop := cache.commitState = .allowed ∧ 0 < cache.numCommittedTokens

def resizePage (lifeCycle : AttnLifeCycle) (ordinal : Nat) (page : BlockPage) : BlockPage :=
  if ordinal < cache.numBlocks then
    if ordinal ∈ cache.staleRange lifeCycle history ∧
        ordinal ∉ cache.staleRange lifeCycle cache.historyLength then cache.unlockedPage ordinal page
    else page
  else cache.freshPage capacity history lifeCycle ordinal

structure Resized (cache next : KVCache) (capacity history : Nat) : Prop where
  active : cache.status = .active
  grows : cache.historyLength ≤ history
  fits : history ≤ capacity
  allowed : cache.scratchAllows capacity history = true
  rewritten : Rewrites cache next (cache.resizePage capacity history)
  blocks : next.numBlocks = divUp capacity cache.tokensPerBlock
  flags : ∀ ordinal < next.numBlocks, next.isCommitted ordinal = cache.isCommitted ordinal
  frame : ∃ columns flags, next = { cache with
    columns := columns, committedBlocks := flags, capacity := capacity, historyLength := history }

def goesThrough (granted : Bool) : Bool :=
  cache.shortcut capacity history || cache.shrinks capacity || granted

theorem is_committed_outside {cache : KVCache} {ordinal : Nat} (outside : cache.numBlocks ≤ ordinal) :
    cache.isCommitted ordinal = false := by
  have missing : cache.committedBlocks[ordinal]? = none := List.getElem?_eq_none outside
  simp [isCommitted, List.getD, missing]

section Resize
variable {cache : KVCache} {history : Nat}

theorem unlock_stale_blocks_rewrites {unlocked : KVCache}
    (grows : cache.historyLength ≤ history) (res : cache.unlockStaleBlocks history = some unlocked) :
    ∃ cols, unlocked = { cache with columns := cols } ∧
      Rewrites cache unlocked (cache.unlockStalePage history) := by
  unfold unlockStaleBlocks at res
  split at res
  · next same =>
    cases res
    refine ⟨cache.columns, rfl, id, by simp, fun col _ => ⟨rfl, fun ordinal _ => ?_⟩⟩
    have idle : ¬cache.unlocks history col.lifeCycle ordinal = true := by
      rw [unlocks_iff ordinal col.lifeCycle grows, same]
      exact fun both => both.2 both.1
    simp [unlockStalePage, idle]
  · split at res
    · cases res
      exact ⟨_, rfl, rewrites_of_map rfl rfl⟩
    · cases res

theorem set_blocks_num (cache : KVCache) (capacity history : Nat) :
    (cache.setBlocks capacity history).numBlocks = divUp capacity cache.tokensPerBlock := by
  simp [setBlocks, numBlocks]

section
variable {capacity : Nat} (active : cache.status = .active) (grows : cache.historyLength ≤ history) (fits : history ≤ capacity)
  (allowed : cache.scratchAllows capacity history = true)

include active grows fits allowed

theorem set_blocks_resized {unlocked : KVCache} (res : cache.unlockStaleBlocks history = some unlocked) :
    Resized cache (unlocked.setBlocks capacity history) capacity history := by
  obtain ⟨cols, rfl, unlocking⟩ := unlock_stale_blocks_rewrites grows res
  have count := set_blocks_num { cache with columns := cols } capacity history
  refine ⟨active, grows, fits, allowed, ?_, count, ?_, ⟨_, _, rfl⟩⟩
  · refine rewrites_trans unlocking (rewrites_of_map rfl count) ?_
    intro lifeCycle ordinal page inside
    have meaning := unlocks_iff ordinal lifeCycle grows
    constructor
    · intro existing
      have kept : ordinal < cache.numBlocks := existing
      simp only [resizePage, unlockStalePage, kept, if_true]
      rw [if_pos existing]
      by_cases hit : cache.unlocks history lifeCycle ordinal = true
      · simp only [hit, if_true, meaning.mp hit, not_false_eq_true, and_self]
      · have miss := fun both => hit (meaning.mpr both)
        rw [if_neg hit, if_neg miss]
    · intro outside other
      have new : ¬ordinal < cache.numBlocks := not_lt.mpr outside
      simp only [resizePage, new, if_false]
      rw [if_neg (not_lt.mpr outside)]
      rfl
  · intro ordinal inside
    rw [count] at inside
    exact getD_map_range _ inside

theorem shortcut_resized (blocks : cache.numBlocks = divUp cache.capacity cache.tokensPerBlock) (short : cache.shortcut capacity history = true) :
    Resized cache { cache with capacity := capacity, historyLength := history } capacity history := by
  unfold shortcut at short
  simp only [Bool.and_eq_true, beq_iff_eq, List.all_eq_true, Bool.or_eq_true] at short
  obtain ⟨⟨off, count⟩, ranges⟩ := short
  refine ⟨active, grows, fits, allowed, ?_, ?_, fun _ _ => rfl, ⟨cache.columns, cache.committedBlocks, rfl⟩⟩
  · refine ⟨id, by simp, fun col mem => ⟨rfl, fun ordinal inside => ?_⟩⟩
    have existing : ordinal < cache.numBlocks := inside
    have idle : ¬(ordinal ∈ cache.staleRange col.lifeCycle history ∧
        ordinal ∉ cache.staleRange col.lifeCycle cache.historyLength) := by
      rintro ⟨stale, live⟩
      rcases ranges col mem with full | same
      · obtain ⟨window, sliding, -⟩ := (col.lifeCycle.mem_stale history cache.tokensPerBlock ordinal cache.tokens_pos).mp stale
        rw [sliding] at full
        cases full
      · exact live (same ▸ stale)
    simp only [resizePage, existing, if_true, if_neg idle, id]
  · exact blocks.trans count.symm

end

theorem resize_cases {next : KVCache}
    (blocks : cache.numBlocks = divUp cache.capacity cache.tokensPerBlock) {newCapacity newHistory : Option Nat}
    {granted : Bool} (res : cache.resize newCapacity newHistory granted = some next) : (next = cache ∧
      cache.goesThrough (newCapacity.getD cache.capacity) (newHistory.getD cache.historyLength) granted = false) ∨
    (Resized cache next (newCapacity.getD cache.capacity) (newHistory.getD cache.historyLength) ∧
      cache.goesThrough (newCapacity.getD cache.capacity) (newHistory.getD cache.historyLength) granted = true) := by
  unfold resize at res
  simp only at res
  generalize newHistory.getD cache.historyLength = history at res ⊢
  split at res
  case isFalse => cases res
  case isTrue guards =>
    obtain ⟨active, grows, fits, allowed⟩ := guards
    split at res
    · next short =>
      cases res
      exact .inr ⟨shortcut_resized active grows fits allowed blocks short, by simp [goesThrough, short]⟩
    next short =>
    cases unlocking : cache.unlockStaleBlocks history with
    | none =>
      rw [unlocking] at res
      cases res
    | some unlocked =>
      have resized := set_blocks_resized active grows fits allowed unlocking
      rw [unlocking] at res
      simp only at res
      split at res
      · next shrink =>
        split at res
        · cases res
        · cases res
          exact .inr ⟨resized, by simp [goesThrough, shrink]⟩
      next shrink =>
      split at res
      · next enough =>
        cases res
        exact .inr ⟨resized, by simp [goesThrough, enough]⟩
      · next enough =>
        cases res
        refine .inl ⟨rfl, ?_⟩
        simp only [goesThrough, Bool.not_eq_true _ |>.mp short, Bool.not_eq_true _ |>.mp shrink,
          Bool.not_eq_true _ |>.mp enough, Bool.or_false]

end Resize

section Loose
variable {cache : KVCache} {lifeCycle : AttnLifeCycle} {ordinal : Nat} {page : BlockPage}

theorem loose_dropped (stale : ordinal ∈ cache.staleRange lifeCycle cache.historyLength)
    (settled : cache.isCommitted ordinal = true ∨ cache.commitState ≠ .allowed)
    (loose : cache.loosePage lifeCycle ordinal page = true) : page = .none := by
  rw [← sane_dropped stale settled]
  simp only [loosePage, Bool.or_eq_true, Bool.and_eq_true, decide_eq_true_eq, Bool.not_eq_true'] at loose
  rcases loose with sane | ⟨⟨⟨_, uncommitted⟩, publishing⟩, _⟩
  · exact sane
  · simp [uncommitted, publishing] at settled

theorem loose_pending (stale : ordinal ∈ cache.staleRange lifeCycle cache.historyLength)
    (pending : ¬(cache.isCommitted ordinal = true ∨ cache.commitState ≠ .allowed)) :
    cache.loosePage lifeCycle ordinal page = true ↔ page = .holder false ∨ page = .none := by
  have parts : cache.isCommitted ordinal = false ∧ cache.commitState = .allowed := by simpa using pending
  unfold loosePage
  rw [Bool.or_eq_true, sane_held stale pending]
  simp only [stale, parts, decide_true, Bool.not_false, Bool.and_self, Bool.true_and, decide_eq_true_eq]
  constructor
  · rintro ((held | none) | none)
    · exact .inl held
    · exact .inr none.1
    · exact .inr none
  · rintro (held | none)
    · exact .inl (.inl held)
    · exact .inr none

theorem loose_live (live : ordinal ∉ cache.staleRange lifeCycle cache.historyLength) :
    cache.loosePage lifeCycle ordinal page = true ↔ cache.sanePage lifeCycle ordinal page = true := by
  simp [loosePage, live]

end Loose

structure Flagged (cache : KVCache) : Prop where
  blocks : cache.numBlocks = divUp cache.capacity cache.tokensPerBlock
  committed_le : cache.numCommittedBlocks ≤ cache.numBlocks
  flags : ∀ ordinal < cache.numBlocks, cache.isCommitted ordinal = decide (ordinal < cache.numCommittedBlocks)

variable {cache next : KVCache} {capacity history ordinal : Nat} {lifeCycle : AttnLifeCycle} {page : BlockPage}

theorem flagged_of_shaped (shaped : Shaped cache) (active : cache.status = .active) : Flagged cache := by
  have resumed : cache.neverResumed = false := by
    by_contra never
    have idle := (shaped.fresh (by simpa using never)).1
    rw [active] at idle
    cases idle
  refine ⟨shaped.blocks, committed_blocks_le shaped, ?_⟩
  intro ordinal inside
  rw [shaped.flags ordinal inside, resumed, Bool.false_or]

theorem scratch_enabled (scratch : ordinal ∈ cache.scratchRange lifeCycle history capacity) :
    cache.swaScratchReuse.isSome = true := by
  cases reuse : cache.swaScratchReuse with
  | none =>
    simp only [scratchRange, reuse, mem_range] at scratch
    omega
  | some rewind => rfl

theorem new_block_live (lifeCycle : AttnLifeCycle) (resized : Resized cache next capacity history)
    (blocks : cache.numBlocks = divUp cache.capacity cache.tokensPerBlock)
    (enabled : cache.swaScratchReuse.isSome = true) (new : cache.numBlocks ≤ ordinal)
    (inside : ordinal < divUp capacity cache.tokensPerBlock) : ordinal ∉ cache.staleRange lifeCycle history := by
  intro stale
  have below := lifeCycle.stale_lt_history history cache.tokensPerBlock ordinal cache.tokens_pos stale
  have checked := resized.allowed
  obtain ⟨rewind, reuse⟩ := Option.isSome_iff_exists.mp enabled
  simp only [scratchAllows, reuse, Bool.or_eq_true, beq_iff_eq, decide_eq_true_eq] at checked
  rcases checked with same | bounds
  · rw [same] at inside
    omega
  · have order := div_up_mono cache.tokensPerBlock bounds.2
    omega

section
variable (active : cache.status = .active) (loose : cache.loosePage lifeCycle ordinal page = true)

include active loose

theorem live_page (live : ordinal ∉ cache.staleRange lifeCycle cache.historyLength) :
    page = if ordinal ∈ cache.scratchRange lifeCycle cache.historyLength cache.capacity then .none
      else .lock (cache.isCommitted ordinal) := by
  rw [loose_live live] at loose
  split
  · next scratch =>
    exact (sane_scratch live scratch).mp loose
  · next scratch =>
    have owned := (sane_owned live scratch).mp loose
    rwa [ownedPage, if_pos active] at owned

theorem resize_stale_page (existing : ordinal < cache.numBlocks) (stale : ordinal ∈ cache.staleRange lifeCycle history) :
    cache.resizePage capacity history lifeCycle ordinal page =
      if cache.isCommitted ordinal = true ∨ cache.commitState ≠ .allowed then .none
      else if page = .none then .none else .holder false := by
  simp only [resizePage, existing, if_true, stale, true_and]
  by_cases before : ordinal ∈ cache.staleRange lifeCycle cache.historyLength
  · rw [if_neg (not_not.mpr before)]
    split
    · next settled =>
      exact loose_dropped before settled loose
    next settled =>
    rcases (loose_pending before settled).mp loose with rfl | rfl
    · simp
    · simp
  · rw [if_pos before]
    have shape := live_page active loose before
    split at shape
    · subst shape
      simp [unlockedPage]
    · subst shape
      cases flag : cache.isCommitted ordinal <;> simp [unlockedPage, flag]

end

section
variable (resized : Resized cache next capacity history)

include resized

theorem resized_reads (ordinal : Nat) (lifeCycle : AttnLifeCycle) :
    next.commitState = cache.commitState ∧ next.numCommittedTokens = cache.numCommittedTokens ∧
      next.staleRange lifeCycle next.historyLength = cache.staleRange lifeCycle history ∧
      next.scratchRange lifeCycle next.historyLength next.capacity = cache.scratchRange lifeCycle history capacity ∧
      next.ownedPage ordinal = .lock (next.isCommitted ordinal) := by
  obtain ⟨cols, flags, frame⟩ := resized.frame
  refine ⟨by rw [frame], by rw [frame], by rw [frame]; rfl, by rw [frame]; rfl, if_pos ?_⟩
  rw [frame]
  exact resized.active

theorem resize_old_block (col : Column) (flagged : Flagged cache)
    (existing : ordinal < cache.numBlocks) (inside : ordinal < next.numBlocks)
    (loose : cache.loosePage col.lifeCycle ordinal (col.page ordinal) = true) : next.sanePage col.lifeCycle ordinal
        (cache.resizePage capacity history col.lifeCycle ordinal (col.page ordinal)) = true ↔
      KeepsBlock cache capacity history (Publishing cache) cache.numCommittedBlocks col ordinal := by
  have active := resized.active
  have flag := resized.flags ordinal inside
  have committed := flagged.flags ordinal existing
  have grows := resized.grows
  obtain ⟨st, tokens, window, range, owned⟩ := resized_reads resized ordinal col.lifeCycle
  by_cases stale : ordinal ∈ cache.staleRange col.lifeCycle history
  · have stale_next : ordinal ∈ next.staleRange col.lifeCycle next.historyLength := window ▸ stale
    rw [resize_stale_page active loose existing stale]
    simp only [KeepsBlock, stale, existing, not_true_eq_false, false_implies, implies_true, true_and,
      true_implies, Publishing, and_imp]
    split
    · next settled =>
      rw [sane_dropped stale_next (by rwa [flag, st])]
      simp only [true_iff]
      intro publishing _ above
      rw [committed] at settled
      simp only [decide_eq_true_eq, publishing, ne_eq, not_true_eq_false, or_false] at settled
      omega
    · next settled =>
      rw [sane_held stale_next (by rwa [flag, st]), tokens]
      have parts : cache.isCommitted ordinal = false ∧ cache.commitState = .allowed := by simpa using settled
      have above : cache.numCommittedBlocks ≤ ordinal := by simpa [committed] using parts.1
      by_cases empty : col.page ordinal = .none
      · simp [empty, parts.2, above, Nat.pos_iff_ne_zero]
      · simp [empty]
  · have live : ordinal ∉ cache.staleRange col.lifeCycle cache.historyLength := fun before =>
      stale (col.lifeCycle.stale_mono cache.tokensPerBlock ordinal cache.tokens_pos grows before)
    have live_next : ordinal ∉ next.staleRange col.lifeCycle next.historyLength := window ▸ stale
    have shape := live_page active loose live
    have same : cache.resizePage capacity history col.lifeCycle ordinal (col.page ordinal) =
        col.page ordinal := by
      simp [resizePage, existing, stale]
    simp only [KeepsBlock, stale, existing, not_false_eq_true, true_implies, false_implies, implies_true, and_true]
    rw [same, shape]
    by_cases scratch_next : ordinal ∈ cache.scratchRange col.lifeCycle history capacity
    · rw [sane_scratch live_next (range ▸ scratch_next)]
      split <;> simp_all
    · rw [sane_owned live_next (range ▸ scratch_next), owned]
      split <;> simp_all

theorem resize_new_block (col : Column) (flagged : Flagged cache)
    (new : cache.numBlocks ≤ ordinal) (inside : ordinal < next.numBlocks) : next.sanePage col.lifeCycle ordinal
        (cache.resizePage capacity history col.lifeCycle ordinal (col.page ordinal)) = true ↔
      KeepsBlock cache capacity history (Publishing cache) cache.numCommittedBlocks col ordinal := by
  have flag : next.isCommitted ordinal = false := (resized.flags ordinal inside).trans (is_committed_outside new)
  have bound : ordinal < divUp capacity cache.tokensPerBlock := resized.blocks ▸ inside
  have above : cache.numCommittedBlocks ≤ ordinal := le_trans flagged.committed_le new
  have not_old : ¬ordinal < cache.numBlocks := not_lt.mpr new
  have appended := fun enabled => new_block_live col.lifeCycle resized
    flagged.blocks enabled new bound
  obtain ⟨st, tokens, window, range, owned⟩ := resized_reads resized ordinal col.lifeCycle
  rw [flag] at owned
  simp only [resizePage, not_old, if_false, KeepsBlock, false_implies, true_and, above, true_implies, false_and]
  by_cases stale : ordinal ∈ cache.staleRange col.lifeCycle history
  · have off : ¬cache.swaScratchReuse.isSome = true := fun enabled => appended enabled stale
    have stale_next : ordinal ∈ next.staleRange col.lifeCycle next.historyLength := window ▸ stale
    have empty : cache.freshPage capacity history col.lifeCycle ordinal = .none := by simp [freshPage, off, stale]
    rw [empty]
    simp only [stale, imp_false, Publishing]
    by_cases settled : next.isCommitted ordinal = true ∨ next.commitState ≠ .allowed
    · rw [sane_dropped stale_next settled]
      simp only [flag, st, Bool.false_eq_true, false_or] at settled
      simp [settled]
    · rw [sane_held stale_next settled, tokens]
      have allowed : cache.commitState = .allowed := by simpa [flag, st] using settled
      simp [allowed]
  · have live_next : ordinal ∉ next.staleRange col.lifeCycle next.historyLength := window ▸ stale
    simp only [stale, false_implies, implies_true, iff_true]
    by_cases scratch_next : ordinal ∈ cache.scratchRange col.lifeCycle history capacity
    · rw [sane_scratch live_next (range ▸ scratch_next)]
      simp [freshPage, scratch_next, scratch_enabled scratch_next]
    · rw [sane_owned live_next (range ▸ scratch_next), owned]
      simp [freshPage, scratch_next, stale]

theorem resized_exact (flagged : Flagged cache)
    (loose : cache.allPages cache.loosePage = true) : next.allPages next.sanePage = true ↔
      Keeps cache capacity history (Publishing cache) cache.numCommittedBlocks := by
  rw [rewrites_all_pages resized.rewritten, Keeps, ← resized.blocks]
  rw [all_pages_iff] at loose
  refine forall₂_congr fun col mem => forall₂_congr fun ordinal inside => ?_
  by_cases existing : ordinal < cache.numBlocks
  · exact resize_old_block resized col flagged existing inside
      (loose col mem ordinal existing)
  · exact resize_new_block resized col flagged (not_lt.mp existing) inside

end

end TrtLlm.V2.KVCache
