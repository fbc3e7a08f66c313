import TrtLlm.Kv.OnboardSteps
import TrtLlm.Lib.Runs

set_option autoImplicit false

namespace TrtLlm.Kv
open Manager Lib.Trie

structure System (n : Nat) where
  manager : Manager n
  pins : List (Fin n)

-- The public calls, the clock, and what other windows do to the shared tree.
inductive Call (n : Nat) where
  | addSequenceBatch (isEnableBlockReuse : Bool) (adds : List AddRequest)
  | addToken (requestId count : Nat)
  | adjustBlocksIfNeeded (requestId : Nat)
  | storeContextBlocks (requestId : Nat) (req : CacheRequest)
  | storeNewBlock (requestId : Nat) (req : CacheRequest)
  | storeBlocksForReuse (requestId : Nat) (req : CacheRequest) (pinBlocks : Bool)
  | unpinBlocksById (ids : List (Fin n))
  | replaceSharedBlock (requestId blockIdx : Nat)
  | releaseLastBlock (requestId : Nat)
  | detachFrontBlock (requestId : Nat)
  | releaseBlocks (requestId : Nat) (req : Option CacheRequest)
  | refresh
  | tick (now : Nat)
  | insertNodes (keys : List BlockKey)
  | setValue (node : Nat) (window : Int) (value : Nat)
  | clearValue (node : Nat) (window : Int)

namespace System
variable {n : Nat}

def initial (numPrimary numSecondary : Nat) (secondaryOffloadMinPriority : Option RetentionPriority) : System n where
  manager := ⟨.initial numPrimary numSecondary secondaryOffloadMinPriority, .empty, []⟩
  pins := []

-- Only pins still held are given back, and the front of a recurrent-state sequence is never detached: the only
-- caller asks for a sliding window.
inductive Step (config : WindowConfig) : System n → Call n → System n → Prop
  | addSequenceBatch {m next : Manager n} {pins : List (Fin n)} {isEnableBlockReuse : Bool} {adds : List AddRequest} :
      m.addSequenceBatch config isEnableBlockReuse adds = some next →
      Step config ⟨m, pins⟩ (.addSequenceBatch isEnableBlockReuse adds) ⟨next, pins⟩
  | addToken {m next : Manager n} {pins : List (Fin n)} {requestId count : Nat} :
      m.addToken config requestId count = some next → Step config ⟨m, pins⟩ (.addToken requestId count) ⟨next, pins⟩
  | adjustBlocksIfNeeded {m next : Manager n} {pins : List (Fin n)} {requestId : Nat} :
      m.adjustBlocksIfNeeded config requestId = some next →
      Step config ⟨m, pins⟩ (.adjustBlocksIfNeeded requestId) ⟨next, pins⟩
  | storeContextBlocks {m next : Manager n} {pins : List (Fin n)} {requestId : Nat} {req : CacheRequest}
      {sequence : Sequence n} : m.getSequence requestId = some sequence →
      m.storeContextBlocks config sequence req = some next →
      Step config ⟨m, pins⟩ (.storeContextBlocks requestId req) ⟨next, pins⟩
  | storeNewBlock {m next : Manager n} {pins : List (Fin n)} {requestId : Nat} {req : CacheRequest}
      {sequence : Sequence n} : m.getSequence requestId = some sequence →
      m.storeNewBlock config sequence req = some next →
      Step config ⟨m, pins⟩ (.storeNewBlock requestId req) ⟨next, pins⟩
  | storeBlocksForReuse {m next : Manager n} {pins pinned : List (Fin n)} {requestId : Nat} {req : CacheRequest}
      {pinBlocks : Bool} {sequence : Sequence n} : m.getSequence requestId = some sequence →
      m.storeBlocksForReuse config sequence req pinBlocks = some (next, pinned) →
      Step config ⟨m, pins⟩ (.storeBlocksForReuse requestId req pinBlocks) ⟨next, pinned ++ pins⟩
  | unpinBlocksById {m next : Manager n} {pins rest ids : List (Fin n)} : pins.Perm (ids ++ rest) →
      Manager.unpinBlocksById ids m = some next → Step config ⟨m, pins⟩ (.unpinBlocksById ids) ⟨next, rest⟩
  | replaceSharedBlock {m next : Manager n} {pins : List (Fin n)} {requestId blockIdx : Nat} {sequence : Sequence n} :
      m.getSequence requestId = some sequence → m.replaceSharedBlock config requestId sequence blockIdx = some next →
      Step config ⟨m, pins⟩ (.replaceSharedBlock requestId blockIdx) ⟨next, pins⟩
  | releaseLastBlock {m next : Manager n} {pins : List (Fin n)} {requestId : Nat} {sequence : Sequence n} :
      m.getSequence requestId = some sequence → m.releaseLastBlock config requestId sequence = some next →
      Step config ⟨m, pins⟩ (.releaseLastBlock requestId) ⟨next, pins⟩
  | detachFrontBlock {m next : Manager n} {pins : List (Fin n)} {requestId : Nat} {sequence : Sequence n} :
      config.isRecurrentState = false → m.getSequence requestId = some sequence →
      m.detachFrontBlock requestId sequence = some next →
      Step config ⟨m, pins⟩ (.detachFrontBlock requestId) ⟨next, pins⟩
  | releaseBlocks {m next : Manager n} {pins : List (Fin n)} {requestId : Nat} {req : Option CacheRequest}
      {sequence : Sequence n} : m.getSequence requestId = some sequence →
      m.releaseBlocks config requestId sequence req = some next →
      Step config ⟨m, pins⟩ (.releaseBlocks requestId req) ⟨next, pins⟩
  | refresh {m : Manager n} {pins : List (Fin n)} :
      Step config ⟨m, pins⟩ .refresh ⟨{ m with pool := m.pool.refresh }, pins⟩
  | tick {m : Manager n} {pins : List (Fin n)} {now : Nat} : m.pool.now ≤ now →
      Step config ⟨m, pins⟩ (.tick now) ⟨{ m with pool := { m.pool with now := now } }, pins⟩
  | insertNodes {m : Manager n} {pins : List (Fin n)} {keys : List BlockKey} :
      Step config ⟨m, pins⟩ (.insertNodes keys) ⟨{ m with tree := (m.tree.insertNodes keys).1 }, pins⟩
  | setValue {m : Manager n} {pins : List (Fin n)} {node value : Nat} {window : Int} {tree : LookupTree} :
      window ≠ config.windowSize → m.tree.setValue node window value = some tree →
      Step config ⟨m, pins⟩ (.setValue node window value) ⟨{ m with tree := tree }, pins⟩
  | clearValue {m : Manager n} {pins : List (Fin n)} {node : Nat} {window : Int} {tree : LookupTree} :
      window ≠ config.windowSize → m.tree.clearValue node window = some tree →
      Step config ⟨m, pins⟩ (.clearValue node window) ⟨{ m with tree := tree }, pins⟩

-- A batch whose next request finds no block for its first place throws after all the claims: those of the later
-- requests stay.
inductive Attempt (config : WindowConfig) : System n → Call n → System n → Prop
  | returns {st next : System n} {call : Call n} (step : Step config st call next) : Attempt config st call next
  | throws {m claimed reached : Manager n} {pins : List (Fin n)} {isEnableBlockReuse : Bool} {adds : List AddRequest}
      {results : List (ClaimResult n)} {done rest : List (AddRequest × ClaimResult n)} {add : AddRequest}
      {result : ClaimResult n} {boundaries : List Nat} :
      claimBatch config isEnableBlockReuse adds m [] [] = some (claimed, results) →
      adds.zip results = done ++ (add, result) :: rest →
      allocateBatch config isEnableBlockReuse done claimed = some reached →
      snapshotBoundaries config isEnableBlockReuse add = some boundaries → result.claimedBlocks = [] →
      0 < result.numSharedContextBlocks → allocateShared config isEnableBlockReuse add result boundaries [0] reached = none →
      Attempt config ⟨m, pins⟩ (.addSequenceBatch isEnableBlockReuse adds) ⟨reached, pins⟩

section Invariant
variable {config : WindowConfig} {start : Fin n → KVCacheIndex} {m : Manager n}

theorem step_ready (st next : System n) (call : Call n) (ready : Ready config start st.manager st.pins)
    (step : Step config st call next) : Ready config start next.manager next.pins := by
  cases step with
  | addSequenceBatch done => exact ready.add_batch _ _ done
  | addToken done =>
    obtain ⟨retimed, balanced⟩ := relabel _ ready.shaped
      (fun seq => { seq with numTokens := seq.numTokens + _ }) (fun _ => rfl) (fun _ => rfl) (fun _ => rfl)
    have moved := adjust_blocks (ready.sound.with_sequences _) retimed done
    exact ready.moves ⟨moved.sound, moved.shaped, balanced.trans moved.balanced⟩
  | adjustBlocksIfNeeded done => exact ready.moves (adjust_blocks ready.sound ready.shaped done)
  | storeContextBlocks found done =>
    unfold storeContextBlocks at done
    split at done
    · cases done
      exact ready
    split at done
    · cases done
    obtain ⟨sound, steady⟩ := ready.sound.store_steady _ _ _ done
    exact ready.steady sound steady
  | storeNewBlock found done =>
    unfold storeNewBlock at done
    split at done
    · cases done
      exact ready
    split at done
    · cases done
    dsimp only at done
    split at done
    · cases done
      exact ready
    obtain ⟨sound, steady⟩ := ready.sound.store_steady _ _ _ done
    exact ready.steady sound steady
  | storeBlocksForReuse found done =>
    unfold storeBlocksForReuse at done
    dsimp only at done
    split at done
    · cases done
    obtain ⟨sound, holds⟩ := ready.sound.store_blocks done
    exact ready.pin _ sound holds
  | unpinBlocksById outstanding done => exact ready.unpin _ _ outstanding done
  | replaceSharedBlock found done => exact ready.moves (replace_shared _ ready.sound ready.shaped found done)
  | releaseLastBlock found done => exact ready.moves (release_last ready.sound ready.shaped found done)
  | detachFrontBlock flat found done => exact ready.moves (detach_front ready.sound ready.shaped found flat done)
  | releaseBlocks found done => exact ready.release_blocks _ found done
  | @refresh m pins =>
    have same := fun id => Pool.refresh_same m.pool id
    exact ready.steady (ready.sound.with_pool _ same ready.sound.books.refresh) (Sound.steady_pool _ same)
  | @tick m pins now _ =>
    have books : Pool.Accounted { m.pool with now := now } fun id => 0 < m.refs id ∨ Settled id :=
      { ready.sound.books with }
    have same : ∀ id, Pool.SameBlock (m.pool.blocks id) (m.block id) := fun id => Pool.same_block_refl _
    exact ready.steady (ready.sound.with_pool { m.pool with now } same books) (Sound.steady_pool _ same)
  | insertNodes => exact ready.steady (ready.sound.insert_nodes _) ⟨fun _ => rfl, rfl, fun _ => rfl⟩
  | @setValue m pins node val window tree other done =>
    refine ready.steady (ready.sound.with_tree tree (set_value_shape ready.sound.ordered ready.sound.linked done)
      fun at_ => ?_) ⟨fun _ => rfl, rfl, fun _ => rfl⟩
    rcases get_value_set_value at_ config.windowSize done with kept | ⟨_, same, _⟩
    · exact kept
    · exact absurd same.symm other
  | @clearValue m pins node window tree other done =>
    refine ready.steady (ready.sound.with_tree tree (clear_value_shape ready.sound.ordered ready.sound.linked done)
      fun at_ => ?_) ⟨fun _ => rfl, rfl, fun _ => rfl⟩
    rw [get_value_clear_value at_ config.windowSize done, if_neg]
    exact fun both => other both.2.symm

theorem initial_ready (config : WindowConfig) (numPrimary numSecondary : Nat)
    (secondaryOffloadMinPriority : Option RetentionPriority) :
    Ready config (fun id : Fin n => (Pool.initialBlock numPrimary numSecondary id).memoryPoolBlockIndex)
      (initial numPrimary numSecondary secondaryOffloadMinPriority).manager [] := by
  have idle : ∀ id : Fin n, (Pool.initialBlock numPrimary numSecondary id).refCount = 0 := by
    intro id
    unfold Pool.initialBlock
    split
    · rfl
    · split <;> rfl
  refine ⟨⟨?_, ordered_empty, linked_empty, fun node id found => ?_, Equiv.refl _, fun _ => rfl⟩,
    ⟨List.nodup_nil, fun _ _ found => (by cases found), fun _ _ found => (by cases found)⟩, fun id => idle id⟩
  · refine (Pool.Accounted.initial numPrimary numSecondary secondaryOffloadMinPriority).congr fun id => ?_
    refine ⟨False.elim, fun held => ?_⟩
    rcases held with used | waiting
    · rw [show (initial numPrimary numSecondary secondaryOffloadMinPriority).manager.refs id = 0 from idle id] at used
      exact absurd used (lt_irrefl 0)
    · exact waiting
  · have bare : (empty : LookupTree).getValue node config.windowSize = none := by
      cases node with
      | zero => rfl
      | succ node => rfl
    rw [block_at_none bare] at found
    cases found

end Invariant

section Accounting

def occurrences (m : Manager n) (id : Fin n) : Nat :=
  ([.primary, .secondary, .placeholder].map fun level => ∑ priority, (m.pool.freeQueues level priority).count id).sum

structure QueuesAccounted (start : Fin n → KVCacheIndex) (m : Manager n) : Prop where
  occurrences : ∀ id, occurrences m id = if (m.block id).refCount = 0 then 1 else 0
  placed : ∀ level priority, ∀ id ∈ m.pool.freeQueues level priority,
    (m.block id).cacheLevel = level ∧ (m.block id).priority = priority
  counted : ∀ level, m.pool.numFreeBlocks level = ∑ priority, (m.pool.freeQueues level priority).length
  expiring : ∀ entry ∈ m.pool.expiring, (m.block entry.2).refCount = 0
  indices : (List.ofFn fun id => (m.block id).memoryPoolBlockIndex).Perm (List.ofFn start)

theorem level_occurrences {held : Fin n → Prop} {pool : Pool n} (books : pool.Accounted held) (id : Fin n) (level : CacheLevel) :
    ∑ prio, (pool.freeQueues level prio).count id =
      if pool.level id = level then (pool.freeQueues level (pool.priority id)).count id else 0 := by
  have elsewhere : ∀ prio, pool.level id ≠ level ∨ pool.priority id ≠ prio →
      (pool.freeQueues level prio).count id = 0 := by
    intro prio apart
    refine List.count_eq_zero.mpr fun mem => ?_
    obtain ⟨here, ranked⟩ := books.placed level prio id mem
    rcases apart with other | other
    · exact other here
    · exact other ranked
  split
  · refine Finset.sum_eq_single (pool.priority id) (fun prio _ other => ?_) fun absent => ?_
    · exact elsewhere prio (.inr other.symm)
    · exact absurd (Finset.mem_univ _) absent
  · next here =>
    exact Finset.sum_eq_zero fun prio _ => elsewhere prio (.inl here)

theorem ready_occurrences {config : WindowConfig} {start : Fin n → KVCacheIndex} {m : Manager n} {pins : List (Fin n)}
    (ready : Ready config start m pins) (id : Fin n) : occurrences m id = if (m.block id).refCount = 0 then 1 else 0 := by
  have books := ready.sound.books
  have total : occurrences m id = (m.pool.freeQueues (m.pool.level id) (m.pool.priority id)).count id := by
    unfold occurrences
    simp only [level_occurrences books, List.map_cons, List.map_nil, List.sum_cons, List.sum_nil]
    cases m.pool.level id <;> simp
  rw [total]
  split
  · next idle =>
    refine books.present id fun held => ?_
    rcases held with used | waiting
    · exact absurd used (by rw [refs, idle]; exact lt_irrefl 0)
    · exact waiting
  · next idle =>
    exact List.count_eq_zero.mpr (books.absent id (.inl (Nat.pos_of_ne_zero idle)) _ _)

theorem queues_accounted_of_reachable (config : WindowConfig) (numPrimary numSecondary : Nat)
    (secondaryOffloadMinPriority : Option RetentionPriority) (state : System n)
    (reached : Lib.Reachable (Step config) (initial numPrimary numSecondary secondaryOffloadMinPriority) state) :
    QueuesAccounted (fun id => (Pool.initialBlock numPrimary numSecondary id).memoryPoolBlockIndex) state.manager := by
  have ready := Lib.reachable_invariant
    (fun state => Ready config
      (fun id : Fin n => (Pool.initialBlock numPrimary numSecondary id).memoryPoolBlockIndex) state.manager state.pins)
    (fun state call next => step_ready state next call) _ _ reached
    (initial_ready config numPrimary numSecondary secondaryOffloadMinPriority)
  refine ⟨ready_occurrences ready, ready.sound.books.placed, ready.sound.books.counted, fun entry mem => ?_, ?_⟩
  · have free := (ready.sound.books.expires entry mem).1
    exact Nat.eq_zero_of_not_pos fun used => free (.inl used)
  obtain ⟨moved, at_⟩ := ready.sound.indices
  rw [show (fun id => (state.manager.block id).memoryPoolBlockIndex) =
    (fun id => (Pool.initialBlock numPrimary numSecondary id).memoryPoolBlockIndex) ∘ moved from funext at_]
  exact Equiv.Perm.ofFn_comp_perm moved _

end Accounting

section Reached
variable {config : WindowConfig} {numPrimary numSecondary : Nat} {secondaryOffloadMinPriority : Option RetentionPriority}
  {state : System n}
  (reached : Lib.Reachable (Step config) (initial numPrimary numSecondary secondaryOffloadMinPriority) state)

include reached

theorem reachable_ready : ∃ start, Ready config start state.manager state.pins :=
  ⟨_, Lib.reachable_invariant (fun state => Ready config _ state.manager state.pins)
    (fun state call next => step_ready state next call) _ _ reached (initial_ready config numPrimary numSecondary _)⟩

theorem references_exact (id : Fin n) : state.manager.refs id = state.manager.listed id + state.pins.count id ∧
    (occurrences state.manager id = if state.manager.listed id + state.pins.count id = 0 then 1 else 0) ∧
    ∀ node, state.manager.blockAt config node = some id → (state.manager.block id).lookupNode = some node := by
  obtain ⟨start, ready⟩ := reachable_ready reached
  rw [← ready.counted]
  exact ⟨rfl, ready_occurrences ready id, fun node => ready.sound.stored node id⟩

theorem free_block_unheld {priority : RetentionPriority} {durationMs : Option Nat} {wantPlaceholder : Bool} {id : Fin n}
    {next : Manager n} (got : state.manager.getFreeBlock config priority durationMs wantPlaceholder = some (id, next)) :
    state.manager.listed id = 0 ∧ id ∉ state.pins ∧ (state.manager.block id).isPlaceholder = wantPlaceholder ∧
      next.sequences = state.manager.sequences ∧ ∀ other, next.refs other = state.manager.refs other := by
  obtain ⟨start, ready⟩ := reachable_ready reached
  have given := ready.sound.get_free _ _ _ _ _ got
  have held := ready.counted id
  rw [given.idle] at held
  exact ⟨by omega, List.count_eq_zero.mp (by omega), given.kind, given.steady.sequences, given.steady.refs⟩

end Reached
end System

def fullAttention (tokensPerBlock : Nat) (positive : 0 < tokensPerBlock) : WindowConfig where
  windowSize := 64
  tokensPerBlock := tokensPerBlock
  isSWA := false
  isRecurrentState := false
  isCross := false
  enablePartialReuse := true
  copyOnPartialReuse := true
  linearAttention := ⟨0, false, false⟩
  sortMatches := longestFirst
  tokens_pos := positive
  swa_not_recurrent := fun sliding => by cases sliding
  swa_window := fun sliding => by cases sliding

def promptOf (requestId : Nat) (tokens : List Nat) : CacheRequest where
  request := {
    requestId := requestId
    promptLen := tokens.length
    prompt_le_tokens := le_rfl
    position_le_prompt := Nat.zero_le _
    chunk_le_remaining := Nat.zero_le _ }
  uniqueTokens := tokens.map fun token => ⟨token, 0⟩
  encoderUniqueTokens := none
  usesExtraIds := false
  cacheSalt := none
  extraKeys := fun _ _ => []
  tokenRangeRetentionConfigs := []
  decodeRetentionPriority := defaultRetentionPriority
  decodeDurationMs := none

def firstChunk (requestId : Nat) (tokens : List Nat) (tokensPerBlock : Nat) : AddRequest where
  requestId := requestId
  numTokens := tokens.length
  inputLength := tokens.length
  numContextBlocks := ceilDiv tokens.length tokensPerBlock
  beamWidth := 1
  currentPrepopulatedPromptLen := none
  req := promptOf requestId tokens
  beam_pos := Nat.one_pos

-- A prompt is served and stored; one of the next two continues its prefix, the other matches part of its first
-- block.
def served : Option (Manager 4) :=
  (System.initial 3 1 none : System 4).manager.addSequenceBatch (fullAttention 2 (by decide)) true [firstChunk 0 [1, 2, 3] 2]

def cached : Option (Manager 4) :=
  served.bind fun m => (m.getSequence 0).bind fun sequence =>
    m.releaseBlocks (fullAttention 2 (by decide)) 0 sequence (some (promptOf 0 [1, 2, 3]))

def reused : Option (Manager 4) :=
  cached.bind fun m => m.addSequenceBatch (fullAttention 2 (by decide)) true [firstChunk 1 [1, 2, 4] 2, firstChunk 2 [1, 5] 2]

theorem reused_run_accounted : ∃ again, reused = some again ∧
    System.QueuesAccounted (fun id => (Pool.initialBlock 3 1 id).memoryPoolBlockIndex) again := by
  have present : reused.isSome = true := by decide +kernel
  obtain ⟨again, third⟩ := Option.isSome_iff_exists.mp present
  obtain ⟨released, second, batch⟩ := Option.bind_eq_some_iff.mp third
  obtain ⟨added, first, more⟩ := Option.bind_eq_some_iff.mp second
  obtain ⟨seq, found, release⟩ := Option.bind_eq_some_iff.mp more
  refine ⟨again, third, System.queues_accounted_of_reachable (fullAttention 2 (by decide)) 3 1 none ⟨again, []⟩ ?_⟩
  exact ((Lib.Reachable.refl.step (.addSequenceBatch first)).step (.releaseBlocks found release)).step
    (.addSequenceBatch batch)

def ended (requestId : Nat) (tokens : List Nat) (m : Manager 2) : Option (Manager 2) :=
  (m.getSequence requestId).bind fun sequence =>
    m.releaseBlocks (fullAttention 2 (by decide)) requestId sequence (some (promptOf requestId tokens))

-- Block 0 stores the prefix of request 0, request 3 holds block 1.
def crowded : Option (Manager 2) :=
  (((System.initial 2 0 none : System 2).manager.addSequenceBatch (fullAttention 2 (by decide)) true
    [firstChunk 0 [1, 2, 3] 2]).bind (ended 0 [1, 2, 3])).bind fun m =>
      m.addSequenceBatch (fullAttention 2 (by decide)) true [firstChunk 3 [7] 2]

def pendingBatch : List AddRequest := [firstChunk 4 [8] 2, firstChunk 5 [1, 2, 4] 2]

def claims : Option (Manager 2 × List (ClaimResult 2)) :=
  crowded.bind fun m => Manager.claimBatch (fullAttention 2 (by decide)) true pendingBatch m [] []

def abandoned : Option (Manager 2) :=
  ((claims.bind fun claimed => ended 4 [8] claimed.1).bind (ended 5 [1, 2, 4])).bind (ended 3 [7])

theorem ended_step {requestId : Nat} {tokens : List Nat} {m next : Manager 2} (done : ended requestId tokens m = some next) :
    System.Attempt (fullAttention 2 (by decide)) ⟨m, []⟩ (.releaseBlocks requestId (some (promptOf requestId tokens)))
      ⟨next, []⟩ := by
  obtain ⟨sequence, found, released⟩ := Option.bind_eq_some_iff.mp done
  exact .returns (.releaseBlocks found released)

def findsNone : Manager 2 × List (ClaimResult 2) → Bool
  | (m, [first, _]) => first.claimedBlocks = [] && decide (0 < first.numSharedContextBlocks) &&
      (Manager.allocateShared (fullAttention 2 (by decide)) true (firstChunk 4 [8] 2) first [] [0] m).isNone
  | _ => false

-- Request 4 finds no block after request 5 has claimed block 0, which is lost when all requests have ended.
theorem claimed_block_lost : ∃ m : Manager 2,
    Lib.Reachable (System.Attempt (fullAttention 2 (by decide))) (System.initial 2 0 none) ⟨m, []⟩ ∧ m.sequences = [] ∧
    (m.block 0).refCount = 0 ∧ System.occurrences m 0 = 0 := by
  have lost : (abandoned.map fun m => (m.sequences.isEmpty, (m.block 0).refCount, System.occurrences m 0)) =
      some (true, 0, 0) := by decide +kernel
  have short : claims.all findsNone = true := by decide +kernel
  obtain ⟨m, third, counts⟩ := Option.map_eq_some_iff.mp lost
  obtain ⟨held, second, last⟩ := Option.bind_eq_some_iff.mp third
  obtain ⟨fourth, first, fifth⟩ := Option.bind_eq_some_iff.mp second
  obtain ⟨⟨claimed, results⟩, taken, gone⟩ := Option.bind_eq_some_iff.mp first
  obtain ⟨full, before, claiming⟩ := Option.bind_eq_some_iff.mp taken
  obtain ⟨stored, served, added⟩ := Option.bind_eq_some_iff.mp before
  obtain ⟨start, begun, released⟩ := Option.bind_eq_some_iff.mp served
  rw [taken, Option.all_some] at short
  obtain ⟨unlisted, unreferenced, unqueued⟩ : m.sequences = [] ∧ (m.block 0).refCount = 0 ∧ System.occurrences m 0 = 0 := by
    simpa using counts
  have thrown : System.Attempt (fullAttention 2 (by decide)) ⟨full, []⟩ (.addSequenceBatch true pendingBatch) ⟨claimed, []⟩ := by
    match results, short, claiming with
    | [result, other], short, claiming =>
      simp only [findsNone, Bool.and_eq_true, decide_eq_true_eq, Option.isNone_iff_eq_none] at short
      exact .throws claiming (show _ = [] ++ _ :: _ from rfl) rfl rfl short.1.1 short.1.2 short.2
  exact ⟨m, (Lib.Reachable.refl.step (.returns (.addSequenceBatch begun))).step (ended_step released)
    |>.step (.returns (.addSequenceBatch added)) |>.step thrown
    |>.step (ended_step gone) |>.step (ended_step fifth) |>.step (ended_step last), unlisted, unreferenced, unqueued⟩

theorem cached_reached : ∃ m, cached = some m ∧
    Lib.Reachable (System.Step (fullAttention 2 (by decide))) (System.initial 3 1 none) ⟨m, []⟩ := by
  obtain ⟨m, second⟩ := Option.isSome_iff_exists.mp (by decide +kernel : cached.isSome = true)
  obtain ⟨added, first, more⟩ := Option.bind_eq_some_iff.mp second
  obtain ⟨seq, found, release⟩ := Option.bind_eq_some_iff.mp more
  exact ⟨m, second, (Lib.Reachable.refl.step (.addSequenceBatch first)).step (.releaseBlocks found release)⟩

theorem cached_references_exact : ∃ m, cached = some m ∧ ∀ id, m.refs id = m.listed id := by
  obtain ⟨m, run, reached⟩ := cached_reached
  exact ⟨m, run, fun id => (System.references_exact reached id).1⟩

theorem cached_block_unheld : ∃ m id next, cached = some m ∧
    m.getFreeBlock (fullAttention 2 (by decide)) defaultRetentionPriority none false = some (id, next) ∧ m.listed id = 0 := by
  obtain ⟨m, run, reached⟩ := cached_reached
  have free : (cached.bind (·.getFreeBlock (fullAttention 2 (by decide)) defaultRetentionPriority none false)).isSome = true := by
    decide +kernel
  rw [run] at free
  obtain ⟨⟨id, next⟩, got⟩ := Option.isSome_iff_exists.mp free
  exact ⟨m, id, next, run, got, (System.free_block_unheld reached got).1⟩

end TrtLlm.Kv
