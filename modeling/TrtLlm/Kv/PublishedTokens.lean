import TrtLlm.Kv.ManagerRuns

set_option autoImplicit false

namespace TrtLlm.Kv
open List Option

theorem chopped_at {Token : Type} (size : Nat) (blocks : Nat) : ∀ (tokens : List Token) (idx : Nat) (block : List Token),
    (chopFrom size blocks tokens)[idx]? = some block →
    idx < blocks ∧ block = (tokens.drop (idx * size)).take size := by
  induction blocks with
  | zero => exact fun _ _ _ found => by cases found
  | succ blocks ih =>
    intro tokens idx block found
    cases idx with
    | zero =>
      cases found
      exact ⟨Nat.succ_pos _, by simp⟩
    | succ idx =>
      obtain ⟨below, rfl⟩ := ih _ idx block found
      refine ⟨Nat.succ_lt_succ below, ?_⟩
      rw [drop_drop, Nat.succ_mul, add_comm]

theorem build_keys_tokens (req : CacheRequest) (blocked : List (List UniqueToken)) : ∀ cur,
    (buildBlockKeysFrom req cur blocked).map BlockKey.uniqueTokens = blocked := by
  induction blocked with
  | nil => exact fun _ => rfl
  | cons tokens rest ih => exact fun cur => congrArg (tokens :: ·) (ih _)

theorem key_tokens {req : CacheRequest} {usable size : Nat} (pos : 0 < size) {allowPartial : Bool}
    {blocked : List (List UniqueToken)} (done : chopVectorIntoBlocks req.uniqueTokens usable size allowPartial = some blocked)
    {idx : Nat} {key : BlockKey} (found : (buildBlockKeys req blocked)[idx]? = some key) :
    key.uniqueTokens <+: req.uniqueTokens.drop (idx * size) ∧ 0 < key.uniqueTokens.length ∧
      idx * size + key.uniqueTokens.length ≤ usable := by
  have tokens : blocked[idx]? = some key.uniqueTokens := by
    rw [← build_keys_tokens req blocked 0, getElem?_map]
    exact congrArg (Option.map BlockKey.uniqueTokens) found
  unfold chopVectorIntoBlocks at done
  split at done
  · rename_i whole
    cases done
    obtain ⟨below, own⟩ := chopped_at size _ _ idx _ tokens
    have covered : idx * size < usable := by
      cases allowPartial with
      | false =>
        have reached := (Nat.le_div_iff_mul_le pos).mp (Nat.succ_le_of_lt below)
        rw [Nat.succ_mul] at reached
        omega
      | true =>
        have reached := (Nat.le_div_iff_mul_le pos).mp (Nat.succ_le_of_lt below)
        rw [Nat.succ_mul] at reached
        omega
    rw [own]
    refine ⟨( take_prefix _ _).trans (( take_prefix _ _).drop _), ?_⟩
    rw [length_take, length_drop, length_take]
    constructor <;> omega
  · cases done

-- The tokens of the chunks done so far, and after the prefill all but the one sampled last.
def computedTokens (req : CacheRequest) : Nat :=
  if 0 < req.request.getContextRemainingLength then req.request.contextCurrentPosition else req.uniqueTokens.length - 1

def PrefillBegun (req : CacheRequest) : Prop :=
  0 < req.request.getContextRemainingLength → 0 < req.request.contextCurrentPosition ∨ req.uniqueTokens.length ≤ 1

theorem usable_le_computed_iff (req : CacheRequest) : usableUniqueTokenCount req ≤ computedTokens req ↔ PrefillBegun req := by
  unfold usableUniqueTokenCount computedTokens getUsableUniqueTokenCountForReuse getMaterializedUniqueTokenCountForReuse
    PrefillBegun
  split_ifs <;> omega

namespace Manager
variable {n : Nat} {config : WindowConfig} {start m next : Manager n}
variable {node : Nat} {id : Fin n}

theorem value_of_block_at (found : m.blockAt config node = some id) : m.tree.getValue node config.windowSize = some id.val := by
  unfold blockAt at found
  split at found
  · cases found
  next val stands =>
  split at found
  · cases found
    exact stands
  · cases found

theorem detach_effect (done : m.detachFromLookupNode config id = some next) :
    (∀ other, other ≠ id → next.block other = m.block other) ∧
      ∀ node val, next.tree.getValue node config.windowSize = some val →
        m.tree.getValue node config.windowSize = some val ∧ (m.block id).lookupNode ≠ some node := by
  unfold detachFromLookupNode at done
  cases linked : (m.block id).lookupNode with
  | none =>
    rw [linked] at done
    cases done
    exact ⟨fun _ _ => rfl, fun node val found => ⟨found, nofun⟩⟩
  | some old =>
    rw [linked] at done
    dsimp only at done
    split at done
    · cases done
    next tree cleared =>
    cases done
    refine ⟨fun other apart => by simp [block, modifyBlock, apart], fun node val found => ?_⟩
    rw [Lib.Trie.get_value_clear_value node config.windowSize cleared] at found
    split at found
    · cases found
    · next away => exact ⟨found, fun same => away ⟨(some.inj same).symm, rfl⟩⟩

theorem store_block_effect {key : BlockKey} (done : m.storeBlock config id node key = some next) :
    (∀ other, other ≠ id → next.block other = m.block other) ∧ (next.block id).lookupNode = some node ∧
      (next.block id).blockKey = key ∧
      ∀ at_ val, next.tree.getValue at_ config.windowSize = some val → (at_ = node ∧ val = id.val) ∨
        (m.tree.getValue at_ config.windowSize = some val ∧ (m.block id).lookupNode ≠ some at_) := by
  unfold storeBlock at done
  split at done
  · cases done
  next detached loose =>
  obtain ⟨others, values⟩ := detach_effect loose
  unfold attachToLookupNode at done
  split at done
  · cases done
  next tree set_ =>
  cases done
  refine ⟨fun other apart => ?_, ?_, ?_, fun at_ val found => ?_⟩
  · rw [← others other apart]
    simp [block, modifyBlock, setBlockKey, apart]
  · simp [block, modifyBlock]
  · simp [block, modifyBlock, setBlockKey]
  · rcases Lib.Trie.get_value_set_value at_ config.windowSize set_ with
      same | ⟨here, _, written⟩
    · exact .inr (values at_ val (same.symm.trans found))
    · exact .inl ⟨here, some.inj (found.symm.trans written)⟩

def SameEntries (m next : Manager n) : Prop :=
  next.tree = m.tree ∧ ∀ id, (next.block id).lookupNode = (m.block id).lookupNode ∧ (next.block id).blockKey = (m.block id).blockKey

theorem SameEntries.refl (m : Manager n) : SameEntries m m := ⟨rfl, fun _ => ⟨rfl, rfl⟩⟩

theorem SameEntries.trans {last : Manager n} (left : SameEntries m next) (right : SameEntries next last) : SameEntries m last :=
  ⟨right.1.trans left.1, fun id => ⟨(right.2 id).1.trans (left.2 id).1, (right.2 id).2.trans (left.2 id).2⟩⟩

theorem same_entries_pool (pool : Pool n) (same : ∀ id, Pool.SameBlock (pool.blocks id) (m.block id)) :
    SameEntries m { m with pool := pool } :=
  ⟨rfl, fun id => ⟨(same id).lookupNode, (same id).blockKey⟩⟩

theorem same_entries_counted (m : Manager n) (id : Fin n) (change : Nat → Nat) :
    SameEntries m (m.modifyBlock id fun block => { block with refCount := change block.refCount }) := by
  refine ⟨rfl, fun other => ?_⟩
  by_cases same : other = id
  · simp [block, modifyBlock, same]
  · simp [block, modifyBlock, same]

theorem pin_when_entries (pinBlocks : Bool) (m : Manager n) (id : Fin n) : SameEntries m (pinWhen pinBlocks m id).1 := by
  unfold pinWhen pinBlock
  split_ifs
  · exact same_entries_counted m id _
  · have claimed : SameEntries m (m.claimBlock id (some (m.block id).priority) (m.block id).durationMs) :=
      same_entries_pool _ fun other => Pool.claim_same m.pool id other _ _
    exact claimed.trans (same_entries_counted _ id (· + 1))
  · exact SameEntries.refl m

-- What the tree holds beyond the start was stored, and such a block knows its node and carries the key of its
-- entry.
def Placed (config : WindowConfig) (start m : Manager n) (entries : List (Nat × BlockKey × Slot n)) : Prop :=
  ∀ (node : Nat) (id : Fin n), m.tree.getValue node config.windowSize = some id.val →
    start.tree.getValue node config.windowSize = some id.val ∨
      ((m.block id).lookupNode = some node ∧ (node, (m.block id).blockKey, Slot.block id) ∈ entries)

variable {entries : List (Nat × BlockKey × Slot n)}

theorem Placed.same (placed : Placed config start m entries) (same : SameEntries m next) : Placed config start next entries := by
  intro node id found
  rw [same.1] at found
  rw [(same.2 id).1, (same.2 id).2]
  exact placed node id found

theorem Placed.store_slot {key : BlockKey} {slot : Slot n}
    {pinBlocks : Bool} {pinned : List (Fin n)} (placed : Placed config start m entries) (listed : (node, key, slot) ∈ entries)
    (done : m.storeSlot config node key slot pinBlocks = some (next, pinned)) : Placed config start next entries := by
  have settles : ∀ (base : Manager n) (kind : Bool) (id : Fin n), Placed config start base entries →
      (if kind then (base, []) else pinWhen pinBlocks base id) = (next, pinned) → Placed config start next entries := by
    intro base kind id before res
    split at res
    · cases res
      exact before
    · have same := pin_when_entries pinBlocks base id
      rw [res] at same
      exact before.same same
  unfold storeSlot at done
  split at done
  · cases done
    exact placed
  next id =>
  split at done
  · exact settles m _ _ placed (some.inj done)
  split at done
  · cases done
  next stored put =>
  refine settles stored _ _ ?_ (some.inj done)
  obtain ⟨others, linked, keyed, values⟩ := store_block_effect put
  intro at_ holder found
  rcases values at_ holder.val found with ⟨rfl, own⟩ | ⟨old, away⟩
  · obtain rfl : holder = id := Fin.ext own
    exact .inr ⟨linked, keyed ▸ listed⟩
  -- a block that moves on has left its node
  refine (placed at_ holder old).imp_right fun entry => ?_
  have apart : holder ≠ id := fun same => away (same ▸ entry.1)
  rw [others holder apart]
  exact entry

theorem Placed.store_slots (pinBlocks : Bool)
    (slots : List (Nat × BlockKey × Slot n)) : ∀ (m : Manager n) (pinned : List (Fin n)), slots ⊆ entries →
    Placed config start m entries → storeSlots config pinBlocks slots m = some (next, pinned) →
    Placed config start next entries := by
  induction slots with
  | nil =>
    intro m pinned _ placed done
    cases done
    exact placed
  | cons entry rest ih =>
    intro m pinned listed placed done
    obtain ⟨here, later⟩ := cons_subset.mp listed
    unfold storeSlots at done
    split at done
    · cases done
    next stored first one =>
    split at done
    · cases done
    · next finished others more =>
      cases done
      exact ih stored others later (placed.store_slot here one) more

theorem release_slots_entries (slots : List (Slot n)) : ∀ m : Manager n, SameEntries m (releaseSlots slots m) := by
  induction slots with
  | nil => exact SameEntries.refl
  | cons slot rest ih =>
    intro m
    cases slot with
    | sentinel refCount => exact ih m
    | block id =>
      have dropped : SameEntries m ((m.decRefCount id).getD m) := by
        unfold decRefCount
        split
        · exact same_entries_counted m id (· - 1)
        · exact SameEntries.refl m
      rw [releaseSlots]
      generalize (m.decRefCount id).getD m = base at dropped
      have released : SameEntries base (base.releaseIfFree id (base.block id).isDetached) := by
        unfold releaseIfFree
        split
        · exact SameEntries.refl base
        · exact same_entries_pool _ fun other => Pool.release_same base.pool id other _
      exact (dropped.trans released).trans (ih _)

section
variable (config : WindowConfig) (m next : Manager n) (req : CacheRequest) (slots : List (Slot n))

-- What is new in the tree stands at a position of the sequence and has tokens of the request from there, all below the
-- limit.
def PublishesBelow (limit : Nat) : Prop :=
  ∀ id node, next.blockAt config node = some id → m.blockAt config node ≠ some id →
    ∃ position, slots[position]? = some (.block id) ∧
      (next.block id).blockKey.uniqueTokens <+: req.uniqueTokens.drop (position * config.tokensPerBlock) ∧
      0 < (next.block id).blockKey.uniqueTokens.length ∧
      position * config.tokensPerBlock + (next.block id).blockKey.uniqueTokens.length ≤ limit

def PublishesComputed : Prop := PublishesBelow config m next req slots (computedTokens req)

def AttachesNothing : Prop := ∀ id node, next.blockAt config node = some id → m.blockAt config node = some id

end

-- Before the first chunk nothing is computed, so that every block that is attached is one too many.
theorem published_iff {req : CacheRequest} {slots : List (Slot n)} {usable : Nat}
    (published : PublishesBelow config m next req slots usable) (within : PrefillBegun req → usable ≤ computedTokens req) :
    PublishesComputed config m next req slots ↔ PrefillBegun req ∨ AttachesNothing config m next := by
  constructor
  · intro computed
    by_cases begun : PrefillBegun req
    · exact .inl begun
    right
    have none_computed : computedTokens req = 0 := by
      unfold PrefillBegun at begun
      unfold computedTokens
      split_ifs <;> omega
    intro id node found
    by_contra fresh
    obtain ⟨position, _, _, some_tokens, below⟩ := computed id node found fresh
    omega
  · rintro (begun | nothing) id node found fresh
    · obtain ⟨position, slot, tokens, some_tokens, below⟩ := published id node found fresh
      exact ⟨position, slot, tokens, some_tokens, below.trans (within begun)⟩
    · exact absurd (nothing id node found) fresh

def contextSlots (sequence : Sequence n) : List (Slot n) :=
  ((sequence.cacheBlockIds.headD []).takeWhile Option.isSome).filterMap fun id => id.map Slot.block

theorem store_blocks_published (req : CacheRequest) {usable : Nat} {allowPartial : Bool} {blocked : List (List UniqueToken)}
    {slots : List (Slot n)} {pinBlocks : Bool} {pinned : List (Fin n)}
    (chopped : chopVectorIntoBlocks req.uniqueTokens usable config.tokensPerBlock allowPartial = some blocked)
    (done : m.storeBlocks config (buildBlockKeys req blocked) slots pinBlocks = some (next, pinned)) :
    PublishesBelow config m next req slots usable := by
  intro id node found fresh
  have started : Placed config m { m with tree := (m.tree.insertNodes ((buildBlockKeys req blocked).take slots.length)).1 }
      ((m.tree.insertNodes ((buildBlockKeys req blocked).take slots.length)).2.zip
        (((buildBlockKeys req blocked).take slots.length).zip slots)) := by
    intro at_ holder stands
    rw [Lib.Trie.get_value_insert] at stands
    exact .inl stands
  rcases started.store_slots pinBlocks _ _ pinned (Subset.refl _) done node id (value_of_block_at found) with
    old | ⟨_, mem⟩
  · exact absurd (block_at_value old) fresh
  obtain ⟨idx, at_⟩ := mem_iff_getElem?.mp mem
  obtain ⟨_, pairAt⟩ := getElem?_zip_eq_some.mp at_
  obtain ⟨keyAt, slotAt⟩ := getElem?_zip_eq_some.mp pairAt
  rw [getElem?_take] at keyAt
  split at keyAt
  · exact ⟨idx, slotAt, key_tokens config.tokens_pos chopped keyAt⟩
  · cases keyAt

theorem block_at_same {last : Manager n} (same : SameEntries next last) (node : Nat) :
    last.blockAt config node = next.blockAt config node :=
  block_at_congr (congrArg (fun tree => tree.getValue node config.windowSize) same.1)

theorem PublishesBelow.same {last : Manager n} {req : CacheRequest} {slots : List (Slot n)} {limit : Nat}
    (published : PublishesBelow config m next req slots limit) (same : SameEntries next last) :
    PublishesBelow config m last req slots limit := by
  intro id node found fresh
  rw [(same.2 id).2]
  exact published id node ((block_at_same same node).symm.trans found) fresh

def chunkDone : CacheRequest :=
  { promptOf 0 [1, 2, 3] with
    request :=
      { (promptOf 0 [1, 2, 3]).request with
        contextCurrentPosition := 2
        position_le_prompt := by decide
        chunk_le_remaining := Nat.zero_le _ } }

end Manager
end TrtLlm.Kv
