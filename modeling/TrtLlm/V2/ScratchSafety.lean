import TrtLlm.V2.ScratchRuns

set_option autoImplicit false

namespace TrtLlm.V2.KVCache
open TrtLlm.Lib

section Suspend
variable (cache next : KVCache)

-- A stale block keeps its page, a scratch block has none.
theorem moved_sane_page {cycle : AttnLifeCycle} {ordinal : Nat} {page moved : BlockPage}
    (sane : cache.sanePage cycle ordinal page = true)
    (frame : ∃ cols flags status never, next =
      { cache with columns := cols, committedBlocks := flags, status := status, neverResumed := never })
    (flag : next.isCommitted ordinal = cache.isCommitted ordinal)
    (away : cache.activePage cycle ordinal = false → moved = page) (empty : page = .none → moved = .none)
    (owned : cache.activePage cycle ordinal = true → page = cache.ownedPage ordinal → moved = next.ownedPage ordinal) :
    next.sanePage cycle ordinal moved = true := by
  obtain ⟨cols, flags, status, never, rfl⟩ := frame
  by_cases stale : ordinal ∈ cache.staleRange cycle cache.historyLength
  · rw [away (by simp [activePage, stale])]
    unfold sanePage at sane ⊢
    rw [if_pos stale, ← flag] at sane
    exact (if_pos stale).trans sane
  by_cases scratch : ordinal ∈ cache.scratchRange cycle cache.historyLength cache.capacity
  · rw [sane_scratch stale scratch] at sane
    exact (sane_scratch (by exact stale) (by exact scratch)).mpr (empty sane)
  · rw [sane_owned stale scratch] at sane
    exact (sane_owned (by exact stale) (by exact scratch)).mpr (owned (by simp [activePage, stale]) sane)

theorem suspend_sane_page (cycle : AttnLifeCycle) (ordinal : Nat) (page : BlockPage)
    (active : cache.status = .active) (sane : cache.sanePage cycle ordinal page = true)
    (frame : ∃ cols, next = { cache with columns := cols, status := .suspended }) :
    next.sanePage cycle ordinal (cache.suspendPage cycle ordinal page) = true := by
  obtain ⟨cols, rfl⟩ := frame
  refine moved_sane_page cache _ sane ⟨_, _, _, _, rfl⟩ rfl (fun away => ?_) (fun empty => by rw [empty]; rfl) ?_
  · cases page <;> simp [suspendPage, away]
  · rintro walks rfl
    simp only [suspendPage, walks, if_true, ownedPage, active, reduceCtorEq, if_false]
    rfl

section
variable (sane : cache.allPages cache.sanePage = true)

include sane

theorem suspend_keeps (shaped : Shaped cache)
    (res : cache.suspend = some next) : Shaped next ∧ next.allPages next.sanePage = true := by
  unfold suspend at res
  split_ifs at res with guards
  have active := guards.1
  have frame := (Option.some.inj res).symm
  have resumed := active_resumed cache shaped active
  have rewritten : Rewrites cache next cache.suspendPage :=
    rewrites_of_map (by rw [frame]; rfl) (by rw [frame]; rfl)
  constructor
  · rw [frame]
    refine { shaped with fresh := ?_, running := by simp }
    intro never
    cases resumed.symm.trans never
  · rw [rewrites_all_pages rewritten]
    rw [all_pages_iff] at sane
    intro col mem ordinal inside
    have existing : ordinal < cache.numBlocks := by rw [frame] at inside; exact inside
    exact suspend_sane_page cache next _ _ _ active (sane col mem ordinal existing) ⟨_, frame⟩

theorem active_pages_of_sane : cache.activePages = true := by
  rw [all_pages_iff] at sane
  rw [activePages, all_pages_iff]
  intro col mem ordinal inside
  have page := sane col mem ordinal inside
  by_cases stale : ordinal ∈ cache.staleRange col.lifeCycle cache.historyLength
  · simp [activePage, stale]
  by_cases scratch : ordinal ∈ cache.scratchRange col.lifeCycle cache.historyLength cache.capacity
  · rw [sane_scratch stale scratch] at page
    simp [activePage, isScratch, stale, scratch, page]
  rw [sane_owned stale scratch] at page
  have owned : cache.ownedPage ordinal ≠ .none := by
    unfold ownedPage
    split <;> exact nofun
  simp [activePage, isScratch, stale, scratch, page, owned]

theorem suspend_of_sane (shaped : Shaped cache) (active : cache.status = .active) : cache.suspend.isSome = true := by
  have checked := (check_sanity_iff shaped).mpr sane
  have walked := active_pages_of_sane cache sane
  have locks : cache.allPages (fun cycle ordinal page =>
      !cache.activePage cycle ordinal || cache.isScratch cycle ordinal || isLock page) = true := by
    rw [all_pages_iff] at sane ⊢
    intro col mem ordinal inside
    have page := sane col mem ordinal inside
    by_cases stale : ordinal ∈ cache.staleRange col.lifeCycle cache.historyLength
    · simp [activePage, stale]
    by_cases scratch : ordinal ∈ cache.scratchRange col.lifeCycle cache.historyLength cache.capacity
    · simp [isScratch, scratch]
    · rw [sane_owned stale scratch, ownedPage, if_pos active] at page
      simp [page, isLock]
  unfold suspend
  rw [if_pos ⟨active, checked, walked, locks⟩]
  rfl

end

end Suspend

section Resume
variable (cache next : KVCache)

section
variable (shaped : Shaped cache) (ordinal : Nat)

include shaped

theorem copied_block_live (copied : cache.copiesBlock ordinal = true)
    (cycle : AttnLifeCycle) : ordinal ∉ cache.staleRange cycle cache.historyLength ∧
      ordinal ∉ cache.scratchRange cycle cache.historyLength cache.capacity := by
  simp only [copiesBlock, Bool.and_eq_true, bne_iff_ne, ne_eq, beq_iff_eq] at copied
  obtain ⟨⟨never, rest⟩, rfl⟩ := copied
  have tokens := (shaped.fresh never).2.2
  have whole : cache.historyLength = cache.numCommittedTokens := by
    have upper := shaped.history_le
    have lower := shaped.tokens_le
    omega
  have last := (div_up_inexact cache.tokens_pos rest).2
  constructor
  · intro stale
    obtain ⟨window, sliding, -, before⟩ := (cycle.mem_stale _ _ _ cache.tokens_pos).mp stale
    have pos := cycle.window_pos window sliding
    have bound : (cache.historyLength + 1 - window) / cache.tokensPerBlock ≤
        cache.numCommittedTokens / cache.tokensPerBlock := Nat.div_le_div_right (by omega)
    omega
  intro scratch
  cases reuse : cache.swaScratchReuse with
  | none =>
    simp only [scratchRange, reuse, mem_range] at scratch
    omega
  | some rewind =>
    simp only [scratchRange, reuse] at scratch
    have bounds := cycle.mem_scratch_bounds _ _ _ _ _ scratch
    rw [whole, tokens] at bounds
    omega

theorem resume_flag (inside : ordinal < cache.numBlocks) :
    (cache.isCommitted ordinal && !cache.copiesBlock ordinal) = decide (ordinal < cache.numCommittedBlocks) := by
  rw [shaped.flags ordinal inside]
  cases never : cache.neverResumed with
  | false => simp [copiesBlock, never]
  | true =>
    obtain ⟨_, allowed, tokens⟩ := shaped.fresh never
    have blocks := shaped.blocks
    rw [shaped.blocks_eq allowed, Bool.true_or, Bool.true_and]
    rw [blocks, ← tokens] at inside
    by_cases rest : cache.numCommittedTokens % cache.tokensPerBlock = 0
    · rw [div_up_exact _ _ cache.tokens_pos rest] at inside
      simp [copiesBlock, rest, inside]
    obtain ⟨count, last⟩ := div_up_inexact cache.tokens_pos rest
    rw [copiesBlock, never, last, Bool.eq_iff_iff]
    simp only [Bool.true_and, Bool.not_eq_true', Bool.and_eq_false_iff, bne_eq_false_iff_eq, rest, false_or,
      beq_eq_false_iff_ne, ne_eq, decide_eq_true_eq]
    omega

theorem resume_sane_page (cycle : AttnLifeCycle) (page : BlockPage)
    (idle : cache.status = .suspended) (sane : cache.sanePage cycle ordinal page = true)
    (frame : ∃ cols flags never, next =
      { cache with columns := cols, committedBlocks := flags, status := .active, neverResumed := never })
    (flag : next.isCommitted ordinal = (cache.isCommitted ordinal && !cache.copiesBlock ordinal)) :
    next.sanePage cycle ordinal (cache.resumePage cycle ordinal page) = true := by
  obtain ⟨cols, flags, never, rfl⟩ := frame
  by_cases copied : cache.copiesBlock ordinal = true
  · obtain ⟨live, normal⟩ := copied_block_live cache shaped ordinal copied cycle
    rw [copied, Bool.not_true, Bool.and_false] at flag
    refine (sane_owned (by exact live) (by exact normal)).mpr ?_
    rw [ownedPage, if_pos rfl, flag, resumePage, if_pos copied]
  simp only [copied, Bool.not_false, Bool.and_true] at flag
  rw [resumePage, if_neg copied]
  refine moved_sane_page cache _ sane ⟨_, _, _, _, rfl⟩ flag (fun away => ?_) (fun empty => by rw [empty]; rfl) ?_
  · cases page <;> simp [lockPage, away]
  · rintro walks rfl
    rw [ownedPage, if_neg (by simp [idle]), ownedPage, if_pos rfl, flag, walks]
    rfl

end

theorem resume_keeps (shaped : Shaped cache) (sane : cache.allPages cache.sanePage = true) (granted : Bool)
    (res : cache.resume granted = some next) : Shaped next ∧ next.allPages next.sanePage = true := by
  unfold resume at res
  split_ifs at res with running
  · cases res
    exact ⟨shaped, sane⟩
  have idle := not_not.mp running
  have frame := (Option.some.inj res).symm
  have count : next.numBlocks = cache.numBlocks := by simp [frame, numBlocks]
  have flag : ∀ ordinal < cache.numBlocks,
      next.isCommitted ordinal = (cache.isCommitted ordinal && !cache.copiesBlock ordinal) := by
    intro ordinal inside
    rw [frame]
    exact getD_map_range _ inside
  have rewritten : Rewrites cache next cache.resumePage :=
    rewrites_of_map (by rw [frame]; rfl) count
  constructor
  · have blocks := count.trans shaped.blocks
    have resumed : next.neverResumed = false := by rw [frame]
    have committed : next.numCommittedBlocks = cache.numCommittedBlocks := by rw [frame]; rfl
    refine ⟨by rw [blocks, frame]; rfl, by rw [frame]; exact shaped.history_le,
      by rw [frame]; exact shaped.tokens_le, ?_, by rw [frame]; exact shaped.blocks_le,
      by rw [frame]; exact shaped.blocks_eq, ?_, by simp [frame], by rw [frame]; exact shaped.stopped⟩
    · intro ordinal inside
      rw [count] at inside
      rw [flag ordinal inside, resumed, committed, Bool.false_or]
      exact resume_flag cache shaped ordinal inside
    · simp [resumed]
  · rw [rewrites_all_pages rewritten]
    rw [all_pages_iff] at sane
    intro col mem ordinal inside
    rw [count] at inside
    exact resume_sane_page cache next shaped _ _ _ idle (sane col mem ordinal inside)
      ⟨_, _, _, frame⟩ (flag ordinal inside)

end Resume

-- Outside the stale and the scratch blocks of a sliding window every block owns a page, locked while active,
-- scratch blocks own none, and suspend() and _active_pages pass their assertions.
def OwnsPage (cache : KVCache) (page : BlockPage) : Prop :=
  match cache.status with
  | .active => isLock page = true
  | .suspended => isHolder page = true
  | .closed => False

structure ScratchSound (cache : KVCache) : Prop where
  owned : ∀ column ∈ cache.columns, column.lifeCycle.windowSize.isSome = true → ∀ ordinal < cache.numBlocks,
    ordinal ∉ cache.staleRange column.lifeCycle cache.historyLength →
    ordinal ∉ cache.scratchRange column.lifeCycle cache.historyLength cache.capacity →
    cache.OwnsPage (column.page ordinal)
  scratch : ∀ column ∈ cache.columns, ∀ ordinal < cache.numBlocks,
    ordinal ∈ cache.scratchRange column.lifeCycle cache.historyLength cache.capacity →
    column.page ordinal = .none
  walked : cache.activePages = true
  suspends : cache.status = .active → cache.suspend.isSome = true

theorem sound_of_sane (cache : KVCache) (shaped : Shaped cache) (sane : cache.allPages cache.sanePage = true) :
    ScratchSound cache := by
  refine ⟨?_, ?_, active_pages_of_sane cache sane, fun active => suspend_of_sane cache sane shaped active⟩
  · intro col mem _ ordinal inside live normal
    have page := (all_pages_iff _).mp sane col mem ordinal inside
    rw [sane_owned live normal] at page
    rw [page, OwnsPage, ownedPage]
    have running := shaped.running
    cases status : cache.status <;> simp_all [isLock, isHolder]
  intro col mem ordinal inside scratch
  have page := (all_pages_iff _).mp sane col mem ordinal inside
  have live : ordinal ∉ cache.staleRange col.lifeCycle cache.historyLength := by
    cases reuse : cache.swaScratchReuse with
    | none =>
      simp only [scratchRange, reuse, mem_range] at scratch
      omega
    | some rewind =>
      simp only [scratchRange, reuse] at scratch
      exact col.lifeCycle.scratch_not_stale _ _ _ _ _ scratch cache.tokens_pos
  exact (sane_scratch live scratch).mp page

theorem step_exact {cache next : KVCache} {call : Call} (shaped : Shaped cache)
    (sane : cache.allPages cache.sanePage = true) (res : cache.step call = some next) :
    Shaped next ∧ (next.allPages next.sanePage = true ↔ CallKeeps cache call) ∧
      (next.status = .active ∨ next.allPages next.sanePage = true) := by
  cases call with
  | resume granted =>
    obtain ⟨shaped_next, sane_next⟩ := resume_keeps cache next shaped sane granted res
    exact ⟨shaped_next, iff_of_true sane_next trivial, .inr sane_next⟩
  | suspend =>
    obtain ⟨shaped_next, sane_next⟩ := suspend_keeps cache next sane shaped res
    exact ⟨shaped_next, iff_of_true sane_next trivial, .inr sane_next⟩
  | resize newCapacity newHistory granted =>
    obtain ⟨shaped_next, exact_next⟩ := resize_exact cache next shaped sane res
    refine ⟨shaped_next, exact_next, ?_⟩
    rcases resize_cases shaped.blocks res with
      ⟨rfl, _⟩ | ⟨resized, _⟩
    · exact .inr sane
    · obtain ⟨_, _, frame⟩ := resized.frame
      exact .inl (by rw [frame]; exact resized.active)
  | commit numTokens outcomes =>
    by_cases empty : numTokens = 0
    · have same : cache = next := by
        have taken : cache.commit numTokens outcomes = some next := res
        rw [commit, if_pos empty] at taken
        exact Option.some.inj taken
      subst same
      exact ⟨shaped, iff_of_true sane (.inl empty), .inr sane⟩
    · obtain ⟨active, shaped_next, exact_next⟩ := commit_exact cache next shaped sane empty res
      exact ⟨shaped_next, exact_next, .inl active⟩

theorem sound_iff_sane (next : KVCache) (shaped : Shaped next)
    (settled : next.status = .active ∨ next.allPages next.sanePage = true) :
    ScratchSound next ↔ next.allPages next.sanePage = true := by
  constructor
  · intro sound
    rcases settled with active | sane
    · have suspends := sound.suspends active
      unfold suspend at suspends
      split at suspends
      case isFalse => cases suspends
      case isTrue guards => exact (check_sanity_iff shaped).mp guards.2.1
    · exact sane
  · exact sound_of_sane next shaped

section Created
variable (tokensPerBlock : Nat) (tokens_pos : 0 < tokensPerBlock) (swaScratchReuse : Option Nat)
  (lifeCycles : List AttnLifeCycle) (numTokens : Nat)

theorem created_num_blocks : (createKVCache tokensPerBlock tokens_pos swaScratchReuse lifeCycles numTokens).numBlocks =
      divUp numTokens tokensPerBlock := by
  simp [createKVCache, numBlocks]

theorem created_committed (ordinal : Nat) (inside : ordinal < divUp numTokens tokensPerBlock) :
    (createKVCache tokensPerBlock tokens_pos swaScratchReuse lifeCycles numTokens).isCommitted ordinal = true := by
  simp [createKVCache, isCommitted, List.getD, inside]

theorem created_shaped : Shaped (createKVCache tokensPerBlock tokens_pos swaScratchReuse lifeCycles numTokens) := by
  have count := created_num_blocks tokensPerBlock tokens_pos swaScratchReuse lifeCycles numTokens
  refine ⟨count, le_refl _, le_refl _, ?_, le_refl _, fun _ => rfl, fun _ => ⟨rfl, rfl, rfl⟩, nofun, nofun⟩
  intro ordinal inside
  rw [count] at inside
  rw [created_committed _ _ _ _ _ _ inside]
  rfl

theorem created_sane : let cache := createKVCache tokensPerBlock tokens_pos swaScratchReuse lifeCycles numTokens
    cache.allPages cache.sanePage = true := by
  intro cache
  rw [all_pages_iff, show cache.numBlocks = _ from created_num_blocks ..]
  intro col mem ordinal inside
  have committed := created_committed tokensPerBlock tokens_pos swaScratchReuse lifeCycles numTokens ordinal inside
  obtain ⟨cycle, _, rfl⟩ := List.mem_map.mp mem
  by_cases stale : ordinal ∈ cycle.getStaleRange numTokens tokensPerBlock
  · refine (sane_dropped stale (.inl committed)).mpr ?_
    simp [Column.page, List.getD, inside, stale]
  have normal : ordinal ∉ cache.scratchRange cycle numTokens numTokens := by
    intro scratch
    cases swaScratchReuse with
    | none =>
      simp only [cache, scratchRange, createKVCache, mem_range] at scratch
      omega
    | some rewind =>
      have bounds := cycle.mem_scratch_bounds numTokens numTokens tokensPerBlock rewind ordinal scratch
      omega
  refine (sane_owned stale normal).mpr ?_
  rw [ownedPage, committed, if_neg (by simp [cache, createKVCache])]
  simp [Column.page, List.getD, inside, stale]

def stepRel (cache : KVCache) (call : Call) (next : KVCache) : Prop := cache.step call = some next

theorem scratch_table_sound_iff (run : List (Call × KVCache))
    (trace : Trace stepRel (createKVCache tokensPerBlock tokens_pos swaScratchReuse lifeCycles numTokens) run) :
    (∀ entry ∈ run, ScratchSound entry.2) ↔
      AllSteps CallKeeps (createKVCache tokensPerBlock tokens_pos swaScratchReuse lifeCycles numTokens) run := by
  apply trace_exact CallKeeps (fun cache => Shaped cache ∧ cache.allPages cache.sanePage = true)
    ScratchSound ?_ _ run trace ⟨created_shaped _ _ _ _ _, created_sane _ _ _ _ _⟩
  intro cache call next held res
  obtain ⟨shaped, exact_next, settled⟩ := step_exact held.1 held.2 res
  rw [sound_iff_sane next shaped settled, ← exact_next]
  exact ⟨and_iff_right shaped, (and_iff_right shaped).symm⟩

end Created

def oneBlockWindow : AttnLifeCycle := ⟨some 4, 0, by rintro _ ⟨⟩; decide⟩

theorem scratch_table_sound_two_chunks : ∃ run : List (Call × KVCache),
      run.map (fun entry => entry.2.capacity) = [0, 16, 32, 32] ∧
      Trace stepRel (createKVCache 4 (by decide) (some 0) [oneBlockWindow] 0) run ∧ ∀ entry ∈ run, ScratchSound entry.2 := by
  have trace : Trace stepRel (createKVCache 4 (by decide) (some 0) [oneBlockWindow] 0)
      [(.resume true, _), (.resize (some 16) (some 0) true, _), (.resize (some 32) (some 16) true, _),
        (.suspend, _)] :=
    .cons rfl (.cons rfl (.cons rfl (.cons rfl (.nil _))))
  exact ⟨_, rfl, trace, (scratch_table_sound_iff 4 (by decide) (some 0) [oneBlockWindow] 0 _ trace).mpr (by decide)⟩

-- With a rewind length of 8, resize(8, 0) gives blocks 0 and 1 pages; resize(40, 0) passes the check and counts
-- them as scratch blocks.
theorem scratch_range_covers_owned_pages : ∃ run : List (Call × KVCache),
      Trace stepRel (createKVCache 4 (by decide) (some 8) [oneBlockWindow] 0) run ∧ ∃ entry ∈ run, ¬ScratchSound entry.2 := by
  have trace : Trace stepRel (createKVCache 4 (by decide) (some 8) [oneBlockWindow] 0)
      [(.resume true, _), (.resize (some 8) (some 0) true, _), (.resize (some 40) (some 0) true, _)] :=
    .cons rfl (.cons rfl (.cons rfl (.nil _)))
  refine ⟨_, trace, _, List.mem_cons_of_mem _ (List.mem_cons_of_mem _ (List.mem_singleton.mpr rfl)), ?_⟩
  intro sound
  exact absurd sound.walked (by decide)

end TrtLlm.V2.KVCache
