import TrtLlm.V2.PageTableResize

set_option autoImplicit false

namespace TrtLlm.V2.KVCache

def CommitOutcome.isRefused : CommitOutcome → Bool
  | .refused => true
  | _ => false

structure Committed (cache next : KVCache) (refused : Bool) (count : Nat) : Prop where
  frame : ∃ columns flags state blocks, next = { cache with
    columns := columns, committedBlocks := flags, commitState := state, numCommittedBlocks := blocks }
  state : next.commitState = if refused then .userStop else .allowed
  blocks_le : next.numCommittedBlocks ≤ cache.numCommittedBlocks + count
  blocks_eq : refused = false → next.numCommittedBlocks = cache.numCommittedBlocks + count
  rewritten : ∃ change, Rewrites cache next change ∧ (refused = false →
    ∀ lifeCycle ordinal page, next.numCommittedBlocks ≤ ordinal → change lifeCycle ordinal page = page)
  flagged : Flagged next
  loose : next.allPages next.loosePage = true

def commitPage (cache : KVCache) (convert : AttnLifeCycle → BlockPage → BlockPage) (lifeCycle : AttnLifeCycle)
    (block : Nat) (page : BlockPage) : BlockPage :=
  if block = cache.numCommittedBlocks then
    if block ∈ cache.staleRange lifeCycle cache.historyLength then .none else convert lifeCycle page
  else page

variable {cache next : KVCache} {convert : AttnLifeCycle → BlockPage → BlockPage}

theorem commit_pages_rewrites :
    Rewrites cache (cache.commitPages cache.numCommittedBlocks convert) (cache.commitPage convert) := by
  refine rewrites_of_map rfl ?_
  simp [commitPages, numBlocks]

theorem commit_pages_flag {ord : Nat} (inside : ord < cache.numBlocks) :
    (cache.commitPages cache.numCommittedBlocks convert).isCommitted ord =
      (cache.isCommitted ord || ord == cache.numCommittedBlocks) :=
  getD_map_range _ inside

theorem commit_pages_flagged (flagged : Flagged cache) (room : cache.numCommittedBlocks < cache.numBlocks) :
    Flagged (cache.commitPages cache.numCommittedBlocks convert) := by
  have count : (cache.commitPages cache.numCommittedBlocks convert).numBlocks = cache.numBlocks := by
    simp [commitPages, numBlocks]
  refine ⟨count.trans flagged.blocks, count ▸ room, ?_⟩
  intro ord inside
  rw [count] at inside
  rw [commit_pages_flag inside, flagged.flags ord inside, Bool.eq_iff_iff]
  have next : (cache.commitPages cache.numCommittedBlocks convert).numCommittedBlocks = cache.numCommittedBlocks + 1 := rfl
  simp only [Bool.or_eq_true, decide_eq_true_eq, beq_iff_eq, next]
  omega

def Converts (convert : AttnLifeCycle → BlockPage → BlockPage) : Prop :=
  ∀ lifeCycle, convert lifeCycle .none = .none ∧ ∀ committed, convert lifeCycle (.lock committed) = .lock true

theorem commit_pages_loose (converts : Converts convert) (active : cache.status = .active) (loose : cache.allPages cache.loosePage = true)
    (committing : next = cache.commitPages cache.numCommittedBlocks convert) : next.allPages next.loosePage = true := by
  have rewritten : Rewrites cache next (cache.commitPage convert) := committing ▸ commit_pages_rewrites
  have count : next.numBlocks = cache.numBlocks := by simp [committing, commitPages, numBlocks]
  rw [rewrites_all_pages rewritten, count]
  rw [all_pages_iff] at loose
  intro column mem ordinal inside
  have before := loose column mem ordinal inside
  have flag : next.isCommitted ordinal = (cache.isCommitted ordinal || ordinal == cache.numCommittedBlocks) :=
    committing ▸ commit_pages_flag inside
  have stale_same : next.staleRange column.lifeCycle next.historyLength =
      cache.staleRange column.lifeCycle cache.historyLength := by rw [committing]; rfl
  have scratch_same : next.scratchRange column.lifeCycle next.historyLength next.capacity =
      cache.scratchRange column.lifeCycle cache.historyLength cache.capacity := by rw [committing]; rfl
  have status_same : next.status = cache.status := by rw [committing]; rfl
  by_cases here : ordinal = cache.numCommittedBlocks
  · have committed : next.isCommitted ordinal = true := by rw [flag, here, beq_self_eq_true, Bool.or_true]
    have owned : next.ownedPage ordinal = .lock true := by rw [ownedPage, committed, status_same, if_pos active]
    rw [commitPage, if_pos here]
    by_cases stale : ordinal ∈ cache.staleRange column.lifeCycle cache.historyLength
    · rw [if_pos stale, loosePage, (@sane_dropped next _ _ _ (stale_same ▸ stale) (.inl committed)).mpr rfl, Bool.true_or]
    have shape := live_page active before stale
    rw [if_neg stale, @loose_live next _ _ _ (stale_same ▸ stale)]
    rw [shape]
    split
    · next scratch =>
      rw [(converts column.lifeCycle).1]
      exact (@sane_scratch next _ _ _ (stale_same ▸ stale) (scratch_same ▸ scratch)).mpr rfl
    · next scratch =>
      rw [(converts column.lifeCycle).2]
      exact (@sane_owned next _ _ _ (stale_same ▸ stale) (scratch_same ▸ scratch)).mpr owned.symm
  · have same : next.isCommitted ordinal = cache.isCommitted ordinal := by simp [flag, here]
    have state_same : next.commitState = cache.commitState := by rw [committing]; rfl
    have tokens_same : next.numCommittedTokens = cache.numCommittedTokens := by rw [committing]; rfl
    rw [commitPage, if_neg here]
    unfold loosePage sanePage ownedPage at before ⊢
    rw [stale_same, scratch_same, status_same, same, state_same, tokens_same]
    exact before

section
variable (flagged : Flagged cache) (loose : cache.allPages cache.loosePage = true)

include flagged loose

theorem commit_pages_committed
    (converts : Converts convert) (active : cache.status = .active) (allowed : cache.commitState = .allowed) (room : cache.numCommittedBlocks < cache.numBlocks) :
    Committed cache (cache.commitPages cache.numCommittedBlocks convert) false 1 where
  frame := ⟨_, _, _, _, rfl⟩
  state := allowed
  blocks_le := le_refl _
  blocks_eq := fun _ => rfl
  rewritten := by
    refine ⟨_, commit_pages_rewrites, ?_⟩
    intro _ lifeCycle ordinal page above
    have later : cache.numCommittedBlocks + 1 ≤ ordinal := above
    exact if_neg (by omega)
  flagged := commit_pages_flagged flagged room
  loose := commit_pages_loose converts active loose rfl

theorem stop_loose (st : next.commitState ≠ .allowed)
    (rewritten : Rewrites cache next fun cycle ord page => if cache.stopRange cycle ord then .none else page)
    (frame : ∃ cols st, next = { cache with columns := cols, commitState := st }) :
    next.allPages next.loosePage = true := by
  obtain ⟨cols, other, rfl⟩ := frame
  rw [rewrites_all_pages rewritten]
  rw [all_pages_iff] at loose
  intro col mem ord inside
  have before := loose col mem ord inside
  have meaning : cache.stopRange col.lifeCycle ord = true ↔
      ord ∈ cache.staleRange col.lifeCycle cache.historyLength ∧ cache.isCommitted ord = false := by
    rw [flagged.flags ord inside]
    simp only [stopRange, decide_eq_true_eq, mem_range, decide_eq_false_iff_not]
    omega
  generalize col.page ord = page at before
  by_cases stale : ord ∈ cache.staleRange col.lifeCycle cache.historyLength
  · rw [loosePage, (@sane_dropped { cache with columns := cols, commitState := other } col.lifeCycle
      ord _ stale (.inr st)).mpr ?_, Bool.true_or]
    by_cases hit : cache.stopRange col.lifeCycle ord = true
    · rw [if_pos hit]
    have committed : cache.isCommitted ord = true := by
      by_contra uncommitted
      exact hit (meaning.mpr ⟨stale, by simpa using uncommitted⟩)
    rw [if_neg hit]
    exact loose_dropped stale (.inl committed) before
  · have miss : ¬cache.stopRange col.lifeCycle ord = true := fun hit => stale (meaning.mp hit).1
    rw [if_neg miss, @loose_live { cache with columns := cols, commitState := other } col.lifeCycle ord page stale]
    rw [loose_live stale] at before
    unfold sanePage at before ⊢
    rw [if_neg stale] at before
    exact (if_neg stale).trans before

theorem stop_committed (res : ({ cache with commitState := .userStop } : KVCache).onStopCommitting = some next) :
    Committed cache next true 1 := by
  unfold onStopCommitting at res
  split at res
  case isFalse => cases res
  case isTrue =>
    have cols : next = ({ cache with commitState := .userStop } : KVCache).rewritePages
        (fun cycle ord page => if cache.stopRange cycle ord then .none else page) :=
      (Option.some.inj res).symm
    have rewritten : Rewrites cache next fun cycle ord page =>
        if cache.stopRange cycle ord then .none else page :=
      rewrites_of_map (by rw [cols]; rfl) (by rw [cols]; rfl)
    have stopped : next.commitState = .userStop := by rw [cols]; rfl
    have loose_next := stop_loose flagged loose (by simp [stopped]) rewritten ⟨_, _, cols⟩
    subst cols
    exact ⟨⟨_, _, _, _, rfl⟩, rfl, Nat.le_succ _, by simp, ⟨_, rewritten, by simp⟩,
      ⟨flagged.blocks, flagged.committed_le, flagged.flags⟩, loose_next⟩

theorem commit_block_committed (out : CommitOutcome) (active : cache.status = .active)
    (res : cache.commitBlock out = some next) : Committed cache next out.isRefused 1 := by
  unfold commitBlock at res
  simp only at res
  split at res
  case isFalse => cases res
  case isTrue guards =>
    obtain ⟨allowed, room⟩ := guards
    cases out with
    | published =>
      simp only at res
      split at res
      · cases res
        exact commit_pages_committed flagged loose (fun _ => ⟨rfl, fun _ => rfl⟩) active allowed room
      · cases res
    | rebased existing =>
      cases res
      exact commit_pages_committed flagged loose (fun _ => ⟨rfl, fun _ => rfl⟩) active allowed room
    | refused => exact stop_committed flagged loose res

end

theorem commit_block_allowed (out : CommitOutcome)
    (res : cache.commitBlock out = some next) : cache.commitState = .allowed := by
  unfold commitBlock at res
  simp only at res
  split at res
  case isFalse => cases res
  case isTrue guards => exact guards.1

theorem committed_trans {mid : KVCache} {refused : Bool} {count : Nat}
    (before : Committed cache mid false 1) (after : Committed mid next refused count) :
    Committed cache next refused (count + 1) := by
  have one := before.blocks_eq rfl
  have most := after.blocks_le
  refine ⟨?_, after.state, by omega, ?_, ?_, after.flagged, after.loose⟩
  · obtain ⟨_, _, _, _, first⟩ := before.frame
    obtain ⟨cols, flags, st, blocks, second⟩ := after.frame
    exact ⟨cols, flags, st, blocks, by rw [second, first]⟩
  · intro kept
    have rest := after.blocks_eq kept
    omega
  obtain ⟨first, moved, unchanged⟩ := before.rewritten
  obtain ⟨second, moved', unchanged'⟩ := after.rewritten
  have size : next.numBlocks = mid.numBlocks := by
    obtain ⟨_, _, _, _, second⟩ := after.frame
    rw [after.flagged.blocks, before.flagged.blocks, second]
  refine ⟨fun cycle ord page => second cycle ord (first cycle ord page),
    rewrites_trans moved moved' ?_, ?_⟩
  · intro cycle ord page inside
    exact ⟨fun _ => rfl, fun outside => absurd inside (by omega)⟩
  intro kept cycle ord page above
  have rest := after.blocks_eq kept
  have still := unchanged rfl cycle ord page (by omega)
  simp only [still]
  exact unchanged' kept cycle ord page above

theorem commit_blocks_committed (outcomes : List CommitOutcome)
    (active : cache.status = .active) (allowed : cache.commitState = .allowed) (flagged : Flagged cache)
    (loose : cache.allPages cache.loosePage = true) (res : cache.commitBlocks outcomes = some next) :
    Committed cache next (outcomes.any CommitOutcome.isRefused) outcomes.length := by
  induction outcomes generalizing cache with
  | nil =>
    cases res
    exact ⟨⟨_, _, _, _, rfl⟩, allowed, le_refl _, fun _ => rfl,
      ⟨_, rewrites_id rfl, fun _ _ _ _ _ => rfl⟩, flagged, loose⟩
  | cons out rest ih =>
    unfold commitBlocks at res
    cases first : cache.commitBlock out with
    | none =>
      rw [first] at res
      cases res
    | some mid =>
      rw [first] at res
      simp only at res
      have one := commit_block_committed flagged loose out active first
      obtain ⟨_, _, _, _, frame⟩ := one.frame
      have running : mid.status = .active := by rw [frame]; exact active
      cases kind : out.isRefused with
      | false =>
        rw [kind] at one
        have later := ih running one.state one.flagged one.loose res
        rw [List.any_cons, kind, Bool.false_or, List.length_cons]
        exact committed_trans one later
      | true =>
        -- A refused block stops committing; a second would trip the assertion.
        cases rest with
        | nil =>
          cases res
          simpa [kind] using one
        | cons more tail =>
          unfold commitBlocks at res
          cases second : mid.commitBlock more with
          | none =>
            rw [second] at res
            cases res
          | some after =>
            have still := commit_block_allowed more second
            rw [one.state, kind] at still
            cases still

end TrtLlm.V2.KVCache
