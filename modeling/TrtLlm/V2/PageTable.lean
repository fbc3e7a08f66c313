import TrtLlm.V2.LifeCycle

set_option autoImplicit false

namespace TrtLlm.V2

-- None, a _PageHolder or a _SharedPageLock, of a CommittedPage or an UncommittedPage.
inductive BlockPage where
  | none
  | holder (committed : Bool)
  | lock (committed : Bool)
deriving DecidableEq, Repr

-- By block ordinal. SSM pages live outside the block table.
structure Column where
  lifeCycle : AttnLifeCycle
  pages : List BlockPage
deriving DecidableEq, Repr

inductive CacheStatus where
  | active
  | suspended
  | closed
deriving DecidableEq, Repr

inductive CommitState where
  | allowed
  | virtualStop
  | userStop
deriving DecidableEq, Repr

-- swaScratchReuse holds max_rewind_len when scratch reuse is on; committedBlocks is SeqBlock.is_committed by
-- ordinal.
structure KVCache where
  tokensPerBlock : Nat
  tokens_pos : 0 < tokensPerBlock
  swaScratchReuse : Option Nat
  columns : List Column
  committedBlocks : List Bool
  status : CacheStatus
  commitState : CommitState
  capacity : Nat
  historyLength : Nat
  numCommittedTokens : Nat
  numCommittedBlocks : Nat
  neverResumed : Bool
deriving Repr

def Column.page (column : Column) (ordinal : Nat) : BlockPage := column.pages.getD ordinal .none

-- The first count ordinals are rewritten from the life cycle, the ordinal and the page found there.
def Column.rewrite (count : Nat) (change : AttnLifeCycle → Nat → BlockPage → BlockPage) (column : Column) : Column :=
  { column with pages := (List.range count).map fun ordinal => change column.lifeCycle ordinal (column.page ordinal) }

namespace KVCache
variable (cache : KVCache)

def numBlocks : Nat := cache.committedBlocks.length

def isCommitted (ordinal : Nat) : Bool := cache.committedBlocks.getD ordinal false

variable (lifeCycle : AttnLifeCycle)

def staleRange (historyLength : Nat) : HalfOpenRange :=
  lifeCycle.getStaleRange historyLength cache.tokensPerBlock

def scratchRange (historyLength capacity : Nat) : HalfOpenRange :=
  match cache.swaScratchReuse with
  | none => ⟨0, 0⟩
  | some maxRewindLen => lifeCycle.computeScratchRange historyLength capacity cache.tokensPerBlock maxRewindLen

def allPages (check : AttnLifeCycle → Nat → BlockPage → Bool) : Bool :=
  cache.columns.all fun column =>
    (List.range cache.numBlocks).all fun ordinal => check column.lifeCycle ordinal (column.page ordinal)

def rewritePages (change : AttnLifeCycle → Nat → BlockPage → BlockPage) : KVCache :=
  { cache with columns := cache.columns.map (Column.rewrite cache.numBlocks change) }

-- _active_pages asserts that of the blocks not stale exactly the scratch blocks have no page.
def activePage (ordinal : Nat) : Bool :=
  decide (ordinal ∉ cache.staleRange lifeCycle cache.historyLength)

def isScratch (ordinal : Nat) : Bool :=
  decide (ordinal ∈ cache.scratchRange lifeCycle cache.historyLength cache.capacity)

def activePages : Bool :=
  cache.allPages fun lifeCycle ordinal page =>
    !cache.activePage lifeCycle ordinal || (cache.isScratch lifeCycle ordinal == decide (page = .none))

def ownedPage (ordinal : Nat) : BlockPage :=
  if cache.status = .active then .lock (cache.isCommitted ordinal) else .holder (cache.isCommitted ordinal)

def sanePage (ordinal : Nat) (page : BlockPage) : Bool :=
  if ordinal ∈ cache.staleRange lifeCycle cache.historyLength then
    if cache.isCommitted ordinal = true ∨ cache.commitState ≠ .allowed then decide (page = .none)
    else decide (page = .holder false) || (decide (page = .none) && cache.numCommittedTokens == 0)
  else if ordinal ∈ cache.scratchRange lifeCycle cache.historyLength cache.capacity then
    decide (page = .none)
  else decide (page = cache.ownedPage ordinal)

def checkSanity : Bool :=
  if cache.status = .closed then cache.numBlocks == 0
  else
    decide (cache.numCommittedTokens ≤ cache.historyLength ∧ cache.historyLength ≤ cache.capacity) &&
    decide (cache.numBlocks = divUp cache.capacity cache.tokensPerBlock) &&
    (List.range cache.numBlocks).all (fun ordinal =>
      (cache.neverResumed || decide (ordinal < cache.numCommittedBlocks)) == cache.isCommitted ordinal) &&
    cache.allPages cache.sanePage

def suspendPage (ordinal : Nat) (page : BlockPage) : BlockPage :=
  match page with
  | .lock committed => if cache.activePage lifeCycle ordinal then .holder committed else .lock committed
  | other => other

def isLock : BlockPage → Bool
  | .lock _ => true
  | _ => false

def isHolder : BlockPage → Bool
  | .holder _ => true
  | _ => false

def suspend : Option KVCache :=
  if cache.status = .active ∧ cache.checkSanity = true ∧ cache.activePages = true ∧
      cache.allPages (fun lifeCycle ordinal page =>
        !cache.activePage lifeCycle ordinal || cache.isScratch lifeCycle ordinal || isLock page) = true then
    some { cache.rewritePages cache.suspendPage with status := .suspended }
  else none

-- The first resume after a partial match copies the last block into a page of its own.
def copiesBlock (ordinal : Nat) : Bool :=
  cache.neverResumed && cache.numCommittedTokens % cache.tokensPerBlock != 0 &&
    ordinal == (cache.numCommittedTokens - 1) / cache.tokensPerBlock

def lockPage (walked : Bool) : BlockPage → BlockPage
  | .holder committed => if walked then .lock committed else .holder committed
  | other => other

def resumePage (ordinal : Nat) (page : BlockPage) : BlockPage :=
  if cache.copiesBlock ordinal then .lock false else lockPage (cache.activePage lifeCycle ordinal) page

-- granted: the storage had enough slots, else resume returns False.
def resume (granted : Bool) : Option KVCache :=
  if cache.status ≠ .suspended then none
  else if granted = false then some cache
  else if cache.activePages = true ∧
      cache.allPages (fun lifeCycle ordinal page =>
        !cache.activePage lifeCycle ordinal || cache.isScratch lifeCycle ordinal || isHolder page) = true then
    some { cache.rewritePages cache.resumePage with
      committedBlocks := (List.range cache.numBlocks).map fun ordinal =>
        cache.isCommitted ordinal && !cache.copiesBlock ordinal
      status := .active
      neverResumed := false }
  else none

variable (newHistory : Nat)

def unlocks (lifeCycle : AttnLifeCycle) (ordinal : Nat) : Bool :=
  lifeCycle.windowSize.isSome &&
    decide (max (cache.staleRange lifeCycle cache.historyLength).stop (cache.staleRange lifeCycle newHistory).beg ≤ ordinal) &&
    decide (ordinal < (cache.staleRange lifeCycle newHistory).stop)

def unlockedPage (ordinal : Nat) : BlockPage → BlockPage
  | .lock committed => if cache.isCommitted ordinal = false ∧ cache.commitState = .allowed then .holder committed else .none
  | other => other

def unlockStalePage (lifeCycle : AttnLifeCycle) (ordinal : Nat) (page : BlockPage) : BlockPage :=
  if cache.unlocks newHistory lifeCycle ordinal then cache.unlockedPage ordinal page else page

def unlockable : BlockPage → Bool
  | .none => cache.swaScratchReuse.isSome
  | .holder _ => false
  | .lock _ => true

def unlockStaleBlocks : Option KVCache :=
  if newHistory = cache.historyLength then some cache
  else if cache.allPages (fun lifeCycle ordinal page =>
      !cache.unlocks newHistory lifeCycle ordinal || cache.unlockable page) = true then
    some (cache.rewritePages (cache.unlockStalePage newHistory))
  else none

variable (capacity history : Nat)

-- An appended block takes a page unless it is a scratch block or, without scratch reuse, out of the window.
def freshPage (lifeCycle : AttnLifeCycle) (ordinal : Nat) : BlockPage :=
  if cache.swaScratchReuse.isSome then
    if ordinal ∈ cache.scratchRange lifeCycle history capacity then .none else .lock false
  else if ordinal ∈ cache.staleRange lifeCycle history then .none else .lock false

def setBlocks : KVCache :=
  let count := divUp capacity cache.tokensPerBlock
  { cache with
    columns := cache.columns.map (Column.rewrite count fun lifeCycle ordinal page =>
      if ordinal < cache.numBlocks then page else cache.freshPage capacity history lifeCycle ordinal)
    committedBlocks := (List.range count).map cache.isCommitted
    capacity := capacity
    historyLength := history }

-- resize's check on a capacity change under scratch reuse.
def scratchAllows : Bool :=
  match cache.swaScratchReuse with
  | none => true
  | some maxRewindLen =>
    capacity == cache.capacity ||
      decide (cache.capacity - maxRewindLen ≤ history ∧ history ≤ cache.capacity)

def shortcut : Bool :=
  cache.swaScratchReuse.isNone &&
    divUp capacity cache.tokensPerBlock == divUp cache.capacity cache.tokensPerBlock &&
    cache.columns.all fun column =>
      column.lifeCycle.windowSize.isNone ||
        cache.staleRange column.lifeCycle history == cache.staleRange column.lifeCycle cache.historyLength

def hasScratchSlots : Bool :=
  cache.columns.any fun column =>
    (cache.scratchRange column.lifeCycle cache.historyLength cache.capacity).nonempty

def shrinks (capacity : Nat) : Bool := decide (divUp capacity cache.tokensPerBlock < cache.numBlocks)

-- granted: new_gpu_slots found the slots; else the unlocked pages are locked again and resize returns False.
def resize (newCapacity newHistory : Option Nat) (granted : Bool) : Option KVCache :=
  let capacity := newCapacity.getD cache.capacity
  let history := newHistory.getD cache.historyLength
  if cache.status = .active ∧ cache.historyLength ≤ history ∧ history ≤ capacity ∧
      cache.scratchAllows capacity history = true then
    if cache.shortcut capacity history then
      some { cache with capacity := capacity, historyLength := history }
    else match cache.unlockStaleBlocks history with
      | none => none
      | some unlocked =>
        if cache.shrinks capacity then
          if cache.hasScratchSlots then none else some (unlocked.setBlocks capacity history)
        else if granted then some (unlocked.setBlocks capacity history)
        else some cache
  else none

-- No such block in the radix tree yet, a full block to rebase onto (with the life cycles whose page is there), or
-- one it can neither publish nor reuse.
inductive CommitOutcome where
  | published
  | rebased (existing : AttnLifeCycle → Bool)
  | refused

def convertPage : BlockPage → BlockPage
  | .none => .none
  | .holder _ => .holder true
  | .lock _ => .lock true

def rebasePage (existing : Bool) : BlockPage → BlockPage
  | .none => .none
  | .holder _ => if existing then .lock true else .holder true
  | .lock _ => .lock true

def isUncommitted : BlockPage → Bool
  | .none => true
  | .holder committed => !committed
  | .lock committed => !committed

def commitPages (ordinal : Nat) (convert : AttnLifeCycle → BlockPage → BlockPage) : KVCache :=
  { cache.rewritePages (fun lifeCycle block page =>
      if block = ordinal then
        if block ∈ cache.staleRange lifeCycle cache.historyLength then .none else convert lifeCycle page
      else page) with
    committedBlocks := (List.range cache.numBlocks).map fun block =>
      cache.isCommitted block || block == ordinal
    numCommittedBlocks := ordinal + 1 }

def stopRange (ordinal : Nat) : Bool :=
  decide (max (cache.staleRange lifeCycle cache.historyLength).beg cache.numCommittedBlocks ≤ ordinal ∧
    ordinal < (cache.staleRange lifeCycle cache.historyLength).stop)

def onStopCommitting : Option KVCache :=
  if cache.allPages (fun lifeCycle ordinal page =>
      !cache.stopRange lifeCycle ordinal ||
        (!cache.isCommitted ordinal && ((decide (page = .none) && cache.swaScratchReuse.isSome) || isHolder page))) = true then
    some (cache.rewritePages fun lifeCycle ordinal page =>
      if cache.stopRange lifeCycle ordinal then .none else page)
  else none

def commitBlock (outcome : CommitOutcome) : Option KVCache :=
  let ordinal := cache.numCommittedBlocks
  if cache.commitState = .allowed ∧ ordinal < cache.numBlocks then
    match outcome with
    | .published =>
      if cache.allPages (fun _ block page => block != ordinal || isUncommitted page) = true then
        some (cache.commitPages ordinal fun _ page => convertPage page)
      else none
    | .rebased existing => some (cache.commitPages ordinal fun lifeCycle page => rebasePage (existing lifeCycle) page)
    | .refused => { cache with commitState := .userStop }.onStopCommitting
  else none

def commitBlocks : KVCache → List CommitOutcome → Option KVCache
  | cache, [] => some cache
  | cache, outcome :: rest =>
    match cache.commitBlock outcome with
    | none => none
    | some next => commitBlocks next rest

def extendTokens (numTokens : Nat) : KVCache :=
  { cache with numCommittedTokens := cache.numCommittedTokens + numTokens }

-- The history follows the committed tokens by resize(None, n).
def commitHistory : Option KVCache :=
  if cache.historyLength < cache.numCommittedTokens then cache.resize none (some cache.numCommittedTokens) true
  else some cache

-- What the radix tree answers for each block that becomes full.
def commit (numTokens : Nat) (outcomes : List CommitOutcome) : Option KVCache :=
  if numTokens = 0 then some cache
  else if cache.status ≠ .active ∨ cache.commitState = .userStop then none
  else if cache.commitState = .virtualStop then some (cache.extendTokens numTokens)
  else if outcomes.length ≠
      (cache.extendTokens numTokens).numCommittedTokens / cache.tokensPerBlock - cache.numCommittedBlocks then none
  else match (cache.extendTokens numTokens).commitBlocks outcomes with
    | none => none
    | some committed => committed.commitHistory

inductive Call where
  | resume (granted : Bool)
  | resize (newCapacity newHistory : Option Nat) (granted : Bool)
  | commit (numTokens : Nat) (outcomes : List CommitOutcome)
  | suspend

-- A call that raises has no successor.
def step : Call → Option KVCache
  | .resume granted => cache.resume granted
  | .resize newCapacity newHistory granted => cache.resize newCapacity newHistory granted
  | .commit numTokens outcomes => cache.commit numTokens outcomes
  | .suspend => cache.suspend

end KVCache

-- Before the first resume: the blocks that are not stale hold the committed pages of the match.
def createKVCache (tokensPerBlock : Nat) (tokens_pos : 0 < tokensPerBlock) (swaScratchReuse : Option Nat)
    (lifeCycles : List AttnLifeCycle) (numTokens : Nat) : KVCache where
  tokensPerBlock := tokensPerBlock
  tokens_pos := tokens_pos
  swaScratchReuse := swaScratchReuse
  columns := lifeCycles.map fun lifeCycle =>
    { lifeCycle := lifeCycle
      pages := (List.range (divUp numTokens tokensPerBlock)).map fun ordinal =>
        if ordinal ∈ lifeCycle.getStaleRange numTokens tokensPerBlock then .none else .holder true }
  committedBlocks := List.replicate (divUp numTokens tokensPerBlock) true
  status := .suspended
  commitState := .allowed
  capacity := numTokens
  historyLength := numTokens
  numCommittedTokens := numTokens
  numCommittedBlocks := numTokens / tokensPerBlock
  neverResumed := true

theorem getD_map_range {count ordinal : Nat} (flag : Nat → Bool) (inside : ordinal < count) :
    ((List.range count).map flag).getD ordinal false = flag ordinal := by
  simp [List.getD, inside]

namespace KVCache
variable {cache next : KVCache}

theorem all_pages_iff (check : AttnLifeCycle → Nat → BlockPage → Bool) : cache.allPages check = true ↔
      ∀ col ∈ cache.columns, ∀ ord < cache.numBlocks, check col.lifeCycle ord (col.page ord) = true := by
  simp [allPages]

def Rewrites (cache next : KVCache) (change : AttnLifeCycle → Nat → BlockPage → BlockPage) : Prop :=
  ∃ image : Column → Column, next.columns = cache.columns.map image ∧
    ∀ column ∈ cache.columns, (image column).lifeCycle = column.lifeCycle ∧ ∀ ordinal < next.numBlocks,
        (image column).page ordinal = change column.lifeCycle ordinal (column.page ordinal)

section
variable {change : AttnLifeCycle → Nat → BlockPage → BlockPage}

theorem rewrites_all_pages
    (rewritten : Rewrites cache next change) (check : AttnLifeCycle → Nat → BlockPage → Bool) : next.allPages check = true ↔
      ∀ col ∈ cache.columns, ∀ ord < next.numBlocks,
        check col.lifeCycle ord (change col.lifeCycle ord (col.page ord)) = true := by
  obtain ⟨image, cols, pages⟩ := rewritten
  rw [all_pages_iff, cols]
  simp only [List.forall_mem_map]
  constructor
  · intro passed col mem ord inside
    have found := passed col mem ord inside
    rwa [(pages col mem).1, (pages col mem).2 ord inside] at found
  · intro passed col mem ord inside
    rw [(pages col mem).1, (pages col mem).2 ord inside]
    exact passed col mem ord inside

theorem rewrites_of_map {count : Nat} (cols : next.columns = cache.columns.map (Column.rewrite count change))
    (blocks : next.numBlocks = count) : Rewrites cache next change := by
  refine ⟨Column.rewrite count change, cols, ?_⟩
  intro col _
  refine ⟨rfl, ?_⟩
  intro ord inside
  have inside : ord < count := by omega
  simp [Column.page, Column.rewrite, List.getD, inside]

end

theorem rewrites_id (cols : next.columns = cache.columns) : Rewrites cache next (fun _ _ page => page) :=
  ⟨id, by simpa using cols, fun _ _ => ⟨rfl, fun _ _ => rfl⟩⟩

theorem rewrites_trans {mid : KVCache} {first second change : AttnLifeCycle → Nat → BlockPage → BlockPage}
    (before : Rewrites cache mid first) (after : Rewrites mid next second)
    (composed : ∀ lifeCycle ord page, ord < next.numBlocks →
      (ord < mid.numBlocks → second lifeCycle ord (first lifeCycle ord page) = change lifeCycle ord page) ∧
      (mid.numBlocks ≤ ord → ∀ other, second lifeCycle ord other = change lifeCycle ord page)) :
    Rewrites cache next change := by
  obtain ⟨image, cols, pages⟩ := before
  obtain ⟨image', columns', pages'⟩ := after
  refine ⟨image' ∘ image, by rw [columns', cols, List.map_map], ?_⟩
  intro col mem
  have moved : image col ∈ mid.columns := by
    rw [cols]
    exact List.mem_map_of_mem mem
  refine ⟨((pages' _ moved).1).trans (pages col mem).1, ?_⟩
  intro ord inside
  have facts := composed col.lifeCycle ord (col.page ord) inside
  rw [Function.comp_apply, (pages' _ moved).2 ord inside, (pages col mem).1]
  by_cases existing : ord < mid.numBlocks
  · rw [(pages col mem).2 ord existing]
    exact facts.1 existing
  · exact facts.2 (by omega) _

structure Shaped (cache : KVCache) : Prop where
  blocks : cache.numBlocks = divUp cache.capacity cache.tokensPerBlock
  history_le : cache.historyLength ≤ cache.capacity
  tokens_le : cache.numCommittedTokens ≤ cache.historyLength
  flags : ∀ ordinal < cache.numBlocks,
    cache.isCommitted ordinal = (cache.neverResumed || decide (ordinal < cache.numCommittedBlocks))
  blocks_le : cache.numCommittedBlocks ≤ cache.numCommittedTokens / cache.tokensPerBlock
  blocks_eq : cache.commitState = .allowed → cache.numCommittedBlocks = cache.numCommittedTokens / cache.tokensPerBlock
  fresh : cache.neverResumed = true →
    cache.status = .suspended ∧ cache.commitState = .allowed ∧ cache.numCommittedTokens = cache.capacity
  running : cache.status ≠ .closed
  stopped : cache.commitState ≠ .virtualStop

theorem committed_blocks_le (shaped : Shaped cache) : cache.numCommittedBlocks ≤ cache.numBlocks := by
  rw [shaped.blocks]
  calc cache.numCommittedBlocks ≤ cache.numCommittedTokens / cache.tokensPerBlock := shaped.blocks_le
    _ ≤ divUp cache.numCommittedTokens cache.tokensPerBlock := Nat.div_le_div_right (by have := cache.tokens_pos; omega)
    _ ≤ divUp cache.capacity cache.tokensPerBlock := div_up_mono _ (le_trans shaped.tokens_le shaped.history_le)

theorem check_sanity_iff (shaped : Shaped cache) : cache.checkSanity = true ↔ cache.allPages cache.sanePage = true := by
  have flags : (List.range cache.numBlocks).all (fun ord =>
      (cache.neverResumed || decide (ord < cache.numCommittedBlocks)) == cache.isCommitted ord) = true := by
    rw [List.all_eq_true]
    intro ord inside
    rw [shaped.flags ord (List.mem_range.mp inside)]
    simp
  unfold checkSanity
  rw [if_neg shaped.running, flags]
  simp [shaped.blocks, shaped.tokens_le, shaped.history_le]

theorem unlocks_iff {history : Nat} (ord : Nat) (lifeCycle : AttnLifeCycle) (grows : cache.historyLength ≤ history) :
    cache.unlocks history lifeCycle ord = true ↔ ord ∈ cache.staleRange lifeCycle history ∧
        ord ∉ cache.staleRange lifeCycle cache.historyLength := by
  have start_mono : (cache.staleRange lifeCycle cache.historyLength).beg ≤
      (cache.staleRange lifeCycle history).beg := by
    have more := div_up_mono cache.tokensPerBlock grows
    unfold staleRange AttnLifeCycle.getStaleRange
    cases lifeCycle.windowSize <;> simp only <;> omega
  have sliding : ord ∈ cache.staleRange lifeCycle history → lifeCycle.windowSize.isSome = true := by
    intro stale
    obtain ⟨window, some_window, -⟩ := (lifeCycle.mem_stale history cache.tokensPerBlock ord cache.tokens_pos).mp stale
    rw [some_window]
    rfl
  unfold unlocks
  simp only [Bool.and_eq_true, decide_eq_true_eq]
  constructor
  · rintro ⟨⟨_, lower⟩, upper⟩
    simp only [mem_range]
    omega
  · rintro ⟨stale, live⟩
    refine ⟨⟨sliding stale, ?_⟩, stale.2⟩
    have lower := stale.1
    simp only [mem_range] at live
    omega

end KVCache

end TrtLlm.V2
