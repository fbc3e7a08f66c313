import TrtLlm.Kv.EvictionInvariant
import TrtLlm.Kv.WindowBlockManager
import TrtLlm.Lib.TrieLinks

set_option autoImplicit false

namespace TrtLlm.Kv
open Pool Lib.Trie

theorem Pool.swap_fields {n : Nat} (pool : Pool n) (left right id : Fin n) :
    let block := (pool.swapMemoryPoolBlockOffset left right).blocks id
    block.refCount = (pool.blocks id).refCount ∧ block.lookupNode = (pool.blocks id).lookupNode ∧
      block.isPlaceholder = (pool.blocks id).isPlaceholder ∧
      block.memoryPoolBlockIndex = (pool.blocks (Equiv.swap left right id)).memoryPoolBlockIndex := by
  unfold swapMemoryPoolBlockOffset
  by_cases atRight : id = right
  · subst atRight
    rw [modify_here, Equiv.swap_apply_right]
    by_cases same : id = left
    · subst same
      rw [modify_here]
      exact ⟨rfl, rfl, rfl, rfl⟩
    · rw [modify_other same]
      exact ⟨rfl, rfl, rfl, rfl⟩
  · rw [modify_other atRight]
    by_cases atLeft : id = left
    · subst atLeft
      rw [modify_here, Equiv.swap_apply_left]
      exact ⟨rfl, rfl, rfl, rfl⟩
    · rw [modify_other atLeft, Equiv.swap_apply_of_ne_of_ne atLeft atRight]
      exact ⟨rfl, rfl, rfl, rfl⟩

theorem held_congr {first second : Nat} {waiting : Prop} (same : first = second) :
    (0 < first ∨ waiting) ↔ (0 < second ∨ waiting) := by
  rw [same]

namespace Manager
variable {n : Nat}

def refs (m : Manager n) (id : Fin n) : Nat := (m.block id).refCount

-- Pending blocks are out of the queues although nothing refers to them yet; start is the memory the blocks began
-- with.
structure Sound (config : WindowConfig) (start : Fin n → KVCacheIndex) (m : Manager n) (pending : Fin n → Prop) :
    Prop where
  books : m.pool.Accounted fun id => 0 < m.refs id ∨ pending id
  ordered : m.tree.Ordered
  linked : m.tree.Linked
  stored : ∀ node id, m.blockAt config node = some id → (m.block id).lookupNode = some node
  indices : ∃ moved : Equiv.Perm (Fin n), ∀ id, (m.block id).memoryPoolBlockIndex = start (moved id)

structure Steady (m next : Manager n) : Prop where
  refs : ∀ id, next.refs id = m.refs id
  sequences : next.sequences = m.sequences
  placeholder : ∀ id, (next.block id).isPlaceholder = (m.block id).isPlaceholder

theorem Steady.refl (m : Manager n) : Steady m m := ⟨fun _ => rfl, rfl, fun _ => rfl⟩

theorem Steady.trans {first second third : Manager n} (left : Steady first second) (right : Steady second third) :
    Steady first third :=
  ⟨fun id => (right.refs id).trans (left.refs id), right.sequences.trans left.sequences,
    fun id => (right.placeholder id).trans (left.placeholder id)⟩

section BlockAt
variable {m : Manager n} {config : WindowConfig}

theorem block_at_congr {next : Manager n} {node : Nat}
    (same : next.tree.getValue node config.windowSize = m.tree.getValue node config.windowSize) :
    next.blockAt config node = m.blockAt config node := by
  rw [blockAt, same, blockAt]

theorem block_at_value {node : Nat} {id : Fin n} (found : m.tree.getValue node config.windowSize = some id.val) :
    m.blockAt config node = some id := by
  rw [blockAt, found]
  simp

theorem block_at_none {node : Nat} (bare : m.tree.getValue node config.windowSize = none) : m.blockAt config node = none := by
  rw [blockAt, bare]

end BlockAt

namespace Sound
variable {config : WindowConfig} {start : Fin n → KVCacheIndex} {m : Manager n} {pending : Fin n → Prop}

theorem repend {waiting : Fin n → Prop} (sound : Sound config start m pending)
    (same : ∀ id, (0 < m.refs id ∨ pending id) ↔ (0 < m.refs id ∨ waiting id)) : Sound config start m waiting :=
  { sound with books := sound.books.congr same }

theorem used_settles {id : Fin n} (used : 0 < m.refs id) (other : Fin n) :
    (0 < m.refs other ∨ pending other ∨ other = id) ↔ (0 < m.refs other ∨ pending other) := by
  by_cases same : other = id
  · simp [same, used]
  · simp [same]

theorem settle {id : Fin n} (sound : Sound config start m fun other => pending other ∨ other = id) (used : 0 < m.refs id) :
    Sound config start m pending :=
  sound.repend (used_settles used)

section
variable (pool : Pool n) (same : ∀ id, Pool.SameBlock (pool.blocks id) (m.block id))

include same

theorem with_pool {waiting : Fin n → Prop} (sound : Sound config start m pending) (books : pool.Accounted fun id => 0 < m.refs id ∨ waiting id) :
    Sound config start { m with pool := pool } waiting where
  __ := sound
  books := books.congr fun id => held_congr (same id).refCount.symm
  stored := fun node id found => (same id).lookupNode.trans (sound.stored node id found)
  indices := by
    obtain ⟨moved, at_⟩ := sound.indices
    exact ⟨moved, fun id => (same id).memoryPoolBlockIndex.trans (at_ id)⟩

theorem steady_pool : Steady m { m with pool := pool } :=
  ⟨fun id => (same id).refCount, rfl, fun id => (same id).isPlaceholder⟩

end

theorem steady_swap (m : Manager n) (left right : Fin n) :
    Steady m { m with pool := m.pool.swapMemoryPoolBlockOffset left right } :=
  ⟨fun id => (swap_fields m.pool left right id).1, rfl, fun id => (swap_fields m.pool left right id).2.2.1⟩

theorem modify_keeps {Field : Type} {field : Block → Field} {m : Manager n} {id : Fin n} {change : Block → Block}
    (keeps : field (change (m.block id)) = field (m.block id)) (other : Fin n) :
    field ((m.modifyBlock id change).block other) = field (m.block other) := by
  by_cases here : other = id
  · subst here
    rw [modifyBlock, block, modify_here]
    exact keeps
  · rw [modifyBlock, block, modify_other here]
    rfl

section References
variable {id : Fin n} (other : Fin n)

theorem inc_refs : (m.incRefCount id).refs other = m.refs other + (if other = id then 1 else 0) := by
  by_cases same : other = id <;> simp [refs, block, incRefCount, modifyBlock, same]

theorem dec_cases {next : Manager n} (done : m.decRefCount id = some next) :
    0 < m.refs id ∧ next = m.modifyBlock id fun block => { block with refCount := block.refCount - 1 } := by
  unfold decRefCount at done
  split at done
  · next used =>
    cases done
    exact ⟨by simpa [Block.hasRefs, refs] using used, rfl⟩
  · cases done

theorem dec_refs {next : Manager n} (done : m.decRefCount id = some next) :
    next.refs other + (if other = id then 1 else 0) = m.refs other := by
  obtain ⟨used, rfl⟩ := dec_cases done
  by_cases same : other = id
  · subst same
    simp only [refs, block, modifyBlock, modify_here, if_true]
    exact Nat.sub_add_cancel used
  · simp [refs, block, modifyBlock, same]

end References

variable (sound : Sound config start m pending)

include sound

theorem claim (id : Fin n) (priority : Option RetentionPriority) (durationMs : Option Nat) :
    Sound config start (m.claimBlock id priority durationMs) (fun other => pending other ∨ other = id) := by
  refine sound.with_pool _ (fun other => claim_same m.pool id other priority durationMs) ?_
  exact (sound.books.claim id priority durationMs).congr fun other => or_assoc

theorem release (id : Fin n) (toFront : Bool) (idle : m.refs id = 0) (out : pending id) :
    Sound config start (m.releaseBlock id toFront) (fun other => pending other ∧ other ≠ id) := by
  refine sound.with_pool _ (fun other => release_same m.pool id other toFront) ?_
  refine (sound.books.release id toFront (.inr out)).congr fun other => ?_
  rw [or_and_right, and_iff_left_of_imp]
  rintro used rfl
  exact absurd idle used.ne'

theorem swap (left right : Fin n) (first : 0 < m.refs left ∨ pending left) (second : 0 < m.refs right ∨ pending right) :
    Sound config start { m with pool := m.pool.swapMemoryPoolBlockOffset left right } pending where
  __ := sound
  books := (sound.books.swap left right first second).congr fun id =>
    held_congr (swap_fields m.pool left right id).1.symm
  stored := fun node id found => (swap_fields m.pool left right id).2.1.trans (sound.stored node id found)
  indices := by
    obtain ⟨moved, at_⟩ := sound.indices
    refine ⟨(Equiv.swap left right).trans moved, fun id => ?_⟩
    exact (swap_fields m.pool left right id).2.2.2.trans (at_ _)

section
variable (id : Fin n) (change : Block → Block) (priority : (change (m.block id)).priority = (m.block id).priority)
  (time : (change (m.block id)).expirationTime = (m.block id).expirationTime)

include priority time

theorem modify_block (waiting : Fin n → Prop) (node : (change (m.block id)).lookupNode = (m.block id).lookupNode)
    (idx : (change (m.block id)).memoryPoolBlockIndex = (m.block id).memoryPoolBlockIndex)
    (level : (change (m.block id)).cacheLevel = (m.block id).cacheLevel)
    (same : ∀ other, (0 < m.refs other ∨ pending other) ↔ (0 < (m.modifyBlock id change).refs other ∨ waiting other)) :
    Sound config start (m.modifyBlock id change) waiting where
  __ := sound
  books := (sound.books.modify_label id change level priority time).congr same
  stored := fun at_ other found => (modify_keeps node other).trans (sound.stored at_ other found)
  indices := by
    obtain ⟨moved, at_⟩ := sound.indices
    exact ⟨moved, fun other => (modify_keeps idx other).trans (at_ other)⟩

theorem modify_label (same : SameBlock (change (m.block id)) { m.block id with
      blockKey := (change (m.block id)).blockKey, isFull := (change (m.block id)).isFull }) :
    Sound config start (m.modifyBlock id change) pending ∧ Steady m (m.modifyBlock id change) := by
  have refs := modify_keeps same.refCount
  exact ⟨sound.modify_block id change priority time pending same.lookupNode same.memoryPoolBlockIndex same.level
    fun other => held_congr (refs other).symm, refs, rfl, modify_keeps same.isPlaceholder⟩

end

theorem set_key (id : Fin n) (key : BlockKey) (isFull : Bool) :
    Sound config start (m.setBlockKey id key isFull) pending ∧ Steady m (m.setBlockKey id key isFull) :=
  sound.modify_label id _ rfl rfl ⟨rfl, rfl, rfl, rfl, rfl, rfl⟩

theorem inc_ref (id : Fin n) (out : 0 < m.refs id ∨ pending id) : Sound config start (m.incRefCount id) pending := by
  refine sound.modify_block id _ rfl rfl pending rfl rfl rfl fun other => ?_
  change _ ↔ 0 < (m.incRefCount id).refs other ∨ _
  rw [inc_refs]
  by_cases same : other = id
  · subst same
    exact ⟨fun _ => .inl (by simp), fun _ => out⟩
  · rw [if_neg same, add_zero]

theorem dec_ref (id : Fin n) (next : Manager n)
    (done : m.decRefCount id = some next) : Sound config start next (fun other => pending other ∨ other = id) := by
  have counts := fun other => dec_refs other done
  obtain ⟨used, rfl⟩ := dec_cases done
  refine sound.modify_block id _ rfl rfl _ rfl rfl rfl fun other => ?_
  have count := counts other
  by_cases same : other = id
  · subst same
    exact ⟨fun _ => .inr (.inr rfl), fun _ => .inl used⟩
  · rw [if_neg same, add_zero] at count
    rw [count]
    simp [same]

omit sound

theorem release_if_free (id : Fin n) (toFront : Bool)
    (sound : Sound config start m (fun other => pending other ∨ other = id)) (settled : ¬pending id) :
    Sound config start (m.releaseIfFree id toFront) pending ∧ Steady m (m.releaseIfFree id toFront) := by
  unfold releaseIfFree
  split
  · next used =>
    exact ⟨sound.settle (by simpa [Block.hasRefs, refs] using used), Steady.refl m⟩
  · next used =>
    have idle : m.refs id = 0 := by simpa [Block.hasRefs, refs] using used
    exact ⟨(sound.release id toFront idle (.inr rfl)).repend fun other => or_congr_right (Accounted.released_again settled other),
      steady_pool _ fun other => release_same m.pool id other toFront⟩

end Sound

variable {config : WindowConfig} {start : Fin n → KVCacheIndex} {m : Manager n} {pending : Fin n → Prop}

section Lookup
variable (m) (id : Fin n) (tree : LookupTree) (node : Option Nat)

def relink : Manager n := { m.modifyBlock id fun block => { block with lookupNode := node } with tree := tree }

variable {id tree node}

theorem relink_node_here : ((m.relink id tree node).block id).lookupNode = node := by simp [relink, modifyBlock, block]

theorem relink_node_other (other : Fin n) (ne : other ≠ id) :
    ((m.relink id tree node).block other).lookupNode = (m.block other).lookupNode := by
  simp [relink, modifyBlock, block, ne]

theorem relink_fields (other : Fin n) : let block := (m.relink id tree node).block other
    block.refCount = (m.block other).refCount ∧ block.isPlaceholder = (m.block other).isPlaceholder ∧
      block.memoryPoolBlockIndex = (m.block other).memoryPoolBlockIndex := by
  by_cases here : other = id
  · subst here
    simp [relink, modifyBlock, block]
  · simp [relink, modifyBlock, block, here]

theorem relink_steady : Steady m (m.relink id tree node) :=
  ⟨fun other => (relink_fields m other).1, rfl, fun other => (relink_fields m other).2.1⟩

end Lookup

theorem Sound.relink (sound : Sound config start m pending) (id : Fin n) (tree : LookupTree) (node : Option Nat)
    (shape : tree.Ordered ∧ tree.Linked)
    (stored : ∀ at_ other, (m.relink id tree node).blockAt config at_ = some other →
      ((m.relink id tree node).block other).lookupNode = some at_) : Sound config start (m.relink id tree node) pending where
  books := (sound.books.modify_label id (fun block => { block with lookupNode := node }) rfl rfl rfl).congr fun other =>
    held_congr (relink_fields m other).1.symm
  ordered := shape.1
  linked := shape.2
  stored := stored
  indices := by
    obtain ⟨moved, at_⟩ := sound.indices
    exact ⟨moved, fun other => (relink_fields m other).2.2.trans (at_ other)⟩

variable (sound : Sound config start m pending)

include sound

theorem Sound.detach (id : Fin n) (next : Manager n) (done : m.detachFromLookupNode config id = some next) :
    Sound config start next pending ∧ Steady m next ∧ (next.block id).lookupNode = none := by
  unfold detachFromLookupNode at done
  split at done
  · next linked =>
    cases done
    exact ⟨sound, Steady.refl m, linked⟩
  next node linked =>
  split at done
  · cases done
  next tree cleared =>
  cases done
  refine ⟨sound.relink id tree none (clear_value_shape sound.ordered sound.linked cleared) ?_, relink_steady m,
    relink_node_here m⟩
  intro at_ other found
  have val := get_value_clear_value at_ config.windowSize cleared
  by_cases here : at_ = node
  · rw [if_pos ⟨here, rfl⟩] at val
    rw [@block_at_none _ (m.relink id tree none) config at_ val] at found
    cases found
  rw [if_neg (fun both => here both.1)] at val
  rw [block_at_congr val] at found
  have told := sound.stored at_ other found
  have ne : other ≠ id := by
    rintro rfl
    rw [linked] at told
    exact here (Option.some.inj told).symm
  rw [relink_node_other m other ne, told]

theorem Sound.attach (id : Fin n) (node : Nat) (next : Manager n)
    (bare : (m.block id).lookupNode = none) (done : m.attachToLookupNode config id node = some next) :
    Sound config start next pending ∧ Steady m next := by
  unfold attachToLookupNode at done
  split at done
  · cases done
  next tree written =>
  cases done
  refine ⟨sound.relink id tree (some node) (set_value_shape sound.ordered sound.linked written) ?_, relink_steady m⟩
  intro at_ other found
  rcases get_value_set_value at_ config.windowSize written with
    same | ⟨here, _, val⟩
  · rw [block_at_congr same] at found
    have told := sound.stored at_ other found
    have ne : other ≠ id := by
      rintro rfl
      rw [bare] at told
      cases told
    rw [relink_node_other m other ne, told]
  · rw [@block_at_value _ (m.relink id tree (some node)) config _ _ val] at found
    cases found
    rw [relink_node_here, here]

theorem Sound.with_tree (tree : LookupTree) (shape : tree.Ordered ∧ tree.Linked)
    (same : ∀ node, tree.getValue node config.windowSize = m.tree.getValue node config.windowSize) :
    Sound config start { m with tree := tree } pending where
  __ := sound
  ordered := shape.1
  linked := shape.2
  stored := by
    intro node id found
    rw [block_at_congr (same node)] at found
    exact sound.stored node id found

theorem Sound.insert_nodes (keys : List BlockKey) : Sound config start { m with tree := (m.tree.insertNodes keys).1 } pending :=
  sound.with_tree _ (insert_from_shape keys m.tree 0 sound.ordered sound.linked sound.linked.rooted)
    fun node => get_value_insert node config.windowSize keys

omit sound

theorem Steady.claim (m : Manager n) (id : Fin n) (priority : Option RetentionPriority) (durationMs : Option Nat) :
    Steady m (m.claimBlock id priority durationMs) :=
  Sound.steady_pool _ fun other => claim_same m.pool id other priority durationMs

theorem Steady.release (m : Manager n) (id : Fin n) (toFront : Bool) : Steady m (m.releaseBlock id toFront) :=
  Sound.steady_pool _ fun other => release_same m.pool id other toFront

theorem Sound.acquire (sound : Sound config start m pending) (id got : Fin n) (priority : RetentionPriority)
    (durationMs : Option Nat) (next : Manager n) (done : m.acquire config id priority durationMs = some (got, next)) :
    got = id ∧ Sound config start next (fun other => pending other ∨ other = id) ∧ Steady m next := by
  unfold Manager.acquire at done
  split at done
  · cases done
  next loose detached =>
  cases done
  obtain ⟨kept, steady, _⟩ := sound.detach id loose detached
  exact ⟨rfl, kept.claim id _ _, steady.trans (Steady.claim loose id _ _)⟩

theorem level_placeholder (block : Block) : block.cacheLevel = .placeholder ↔ block.isPlaceholder = true := by
  unfold Block.cacheLevel
  cases block.isPlaceholder <;> cases block.memoryPoolBlockIndex.isPrimary <;> simp

structure Given (config : WindowConfig) (start : Fin n → KVCacheIndex) (m next : Manager n) (pending : Fin n → Prop)
    (wantPlaceholder : Bool) (id : Fin n) : Prop where
  sound : Sound config start next fun other => pending other ∨ other = id
  steady : Steady m next
  idle : m.refs id = 0
  settled : ¬pending id
  kind : (m.block id).isPlaceholder = wantPlaceholder

variable (sound : Sound config start m pending)

include sound

theorem Sound.offload_first {id off : Fin n} {next : Manager n}
    (primary : m.pool.level id = .primary) (free : ¬(0 < m.refs id ∨ pending id)) (done : m.offloadFirst id = some (off, next)) :
    Sound config start next (fun other => pending other ∨ other = off) ∧ Steady m next ∧ m.refs off = 0 ∧
      ¬pending off ∧ (m.block off).isPlaceholder = false := by
  unfold offloadFirst at done
  split at done
  · cases done
  next chosen canOffload found =>
  cases done
  obtain ⟨unused, secondary⟩ := sound.books.get_free off .secondary canOffload found
  have ne : off ≠ id := by
    rintro rfl
    rw [primary] at secondary
    cases secondary
  have idle : m.refs id = 0 := Nat.eq_zero_of_not_pos fun used => free (.inl used)
  have claimed := (sound.claim id none none).claim off none none
  have swapped := claimed.swap id off (.inr (.inl (.inr rfl))) (.inr (.inr rfl))
  have steady := ((Steady.claim m id none none).trans (Steady.claim _ off none none)).trans
    (steady_swap _ id off)
  have released := swapped.release id false ((steady.refs id).trans idle) (.inl (.inr rfl))
  have last := Steady.release { m with
    pool := ((m.pool.claimBlock id none none).claimBlock off none none).swapMemoryPoolBlockOffset id off } id false
  refine ⟨released.repend fun other => or_congr_right ?_, steady.trans last,
    Nat.eq_zero_of_not_pos fun used => unused (.inl used), fun waiting => unused (.inr waiting),
    Bool.eq_false_iff.mpr fun placed => ?_⟩
  · rw [or_right_comm]
    exact @Accounted.released_again n (fun other => pending other ∨ other = off) id
      (fun waits => waits.elim (fun waiting => free (.inr waiting)) ne.symm) other
  · cases secondary.symm.trans ((level_placeholder _).mpr placed)

theorem Sound.get_free (priority : RetentionPriority) (durationMs : Option Nat)
    (wantPlaceholder : Bool) (id : Fin n) (next : Manager n)
    (done : m.getFreeBlock config priority durationMs wantPlaceholder = some (id, next)) :
    Given config start m next pending wantPlaceholder id := by
  unfold getFreeBlock at done
  split at done
  · cases done
  next front canOffload found =>
  obtain ⟨free, level⟩ := sound.books.get_free front _ canOffload found
  by_cases offload : (!wantPlaceholder && !(m.block front).blockKey.uniqueTokens.isEmpty && canOffload &&
      decide (0 < m.pool.numFreeBlocks .secondary)) = true
  · have real : wantPlaceholder = false := by
      simp only [Bool.and_eq_true, Bool.not_eq_true'] at offload
      exact offload.1.1.1
    rw [real] at level
    rw [if_pos offload] at done
    split at done
    · cases done
    next off offloaded moved =>
    obtain ⟨kept, steady, idle, settled, kind⟩ := sound.offload_first level free moved
    obtain ⟨rfl, acquired, later⟩ := kept.acquire off id priority durationMs next done
    refine ⟨acquired.repend fun other => ?_, steady.trans later, idle, settled, kind.trans real.symm⟩
    rw [or_assoc, or_self]
  · rw [if_neg offload] at done
    obtain ⟨rfl, acquired, steady⟩ := sound.acquire front id priority durationMs next done
    refine ⟨acquired, steady, Nat.eq_zero_of_not_pos fun used => free (.inl used), fun waiting => free (.inr waiting), ?_⟩
    cases wantPlaceholder with
    | true => exact (level_placeholder _).mp level
    | false => exact Bool.eq_false_iff.mpr fun placed => by cases level.symm.trans ((level_placeholder _).mpr placed)

theorem Sound.onboard (id : Fin n) (next : Manager n)
    (out : 0 < m.refs id ∨ pending id) (done : m.onboardBlock config id = some next) :
    Sound config start next pending ∧ Steady m next := by
  unfold onboardBlock at done
  split at done
  · split at done
    · cases done
    next fresh acquired got =>
    cases done
    have given := sound.get_free _ _ _ fresh acquired got
    have outside : 0 < acquired.refs id ∨ pending id ∨ id = fresh := by
      rw [given.steady.refs]
      exact out.imp_right .inl
    have swapped := given.sound.swap id fresh outside (.inr (.inr rfl))
    have swaps := given.steady.trans (steady_swap acquired id fresh)
    have released := swapped.release fresh false ((swaps.refs fresh).trans given.idle) (.inr rfl)
    have last := Steady.release { acquired with pool := acquired.pool.swapMemoryPoolBlockOffset id fresh } fresh false
    exact ⟨released.repend fun other => or_congr_right (Accounted.released_again given.settled other), swaps.trans last⟩
  · cases done
    exact ⟨sound, Steady.refl m⟩

end Manager

end TrtLlm.Kv
