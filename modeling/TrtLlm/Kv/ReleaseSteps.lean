import TrtLlm.Kv.SequenceSteps

set_option autoImplicit false

namespace TrtLlm.Kv
open List

namespace Manager
variable {n : Nat} {config : WindowConfig} {start : Fin n → KVCacheIndex} {m next : Manager n}
  {reqId : Nat} {sequence : Sequence n}

theorem Shaped.modify (shaped : Shaped config m) (change : Sequence n → Sequence n)
    (width : ∀ old, (change old).beamWidth = old.beamWidth)
    (aligned : config.isRecurrentState = true → ∀ old, m.getSequence reqId = some old → Aligned (change old)) :
    Shaped config (m.modifySequence reqId change) := by
  refine ⟨?_, fun other another known => ?_, fun other another known recurrent => ?_⟩
  · rw [modifySequence, Lib.Table.keys_update]
    exact shaped.distinct
  · rw [found_modify] at known
    split at known
    · obtain ⟨old, found, rfl⟩ := Option.map_eq_some_iff.mp known
      rw [width]
      exact shaped.wide reqId old found
    · exact shaped.wide other another known
  · rw [found_modify] at known
    split at known
    · obtain ⟨old, found, rfl⟩ := Option.map_eq_some_iff.mp known
      exact aligned recurrent old found
    · exact shaped.aligned other another known recurrent

theorem Sound.modify_held {pending : Fin n → Prop} (sound : Sound config start m pending) (id : Fin n)
    (change : Block → Block) (out : 0 < m.refs id ∨ pending id) (same : Pool.SameBlock (change (m.block id)) (m.block id)) :
    Sound config start (m.modifyBlock id change) pending ∧ Steady m (m.modifyBlock id change) := by
  have kept : ∀ other, Pool.SameBlock ((m.modifyBlock id change).block other) (m.block other) := by
    intro other
    by_cases here : other = id
    · subst here
      rw [modifyBlock, block, Pool.modify_here]
      exact same
    · rw [modifyBlock, block, Pool.modify_other here]
      exact Pool.same_block_refl _
  exact ⟨sound.with_pool _ kept (sound.books.modify_held id change out), Sound.steady_pool _ kept⟩

theorem count_set (slots : List (Slot n)) (idx : Nat) (old new other : Slot n) (found : slots[idx]? = some old) :
    (slots.set idx new).count other + [old].count other = slots.count other + [new].count other := by
  obtain ⟨inside, rfl⟩ := List.getElem?_eq_some_iff.mp found
  have perm_old := getElem_cons_eraseIdx_perm inside
  have new_inside : idx < (slots.set idx new).length := by rw [length_set]; exact inside
  have perm_new := getElem_cons_eraseIdx_perm new_inside
  have one := perm_old.count_eq other
  have two := perm_new.count_eq other
  rw [getElem_set_self, eraseIdx_set_eq] at two
  rw [count_cons] at one two
  rw [count_singleton, count_singleton]
  omega

theorem moves_drop (slot : Slot n) (change : Sequence n → Sequence n) (sound : Sound config start next Settled)
    (shaped : Shaped config m) (found : m.getSequence reqId = some sequence)
    (refs : ∀ id, next.refs id + [slot].count (.block id) = m.refs id)
    (seqs : next.sequences = m.sequences.update reqId change)
    (kinds : ∀ id, (next.block id).isPlaceholder = (m.block id).isPlaceholder)
    (width : ∀ old, (change old).beamWidth = old.beamWidth) (aligned : config.isRecurrentState = true → Aligned (change sequence))
    (counts : ∀ id, (change sequence).allocated.count (.block id) + [slot].count (.block id) =
      sequence.allocated.count (.block id)) : Moves config start m next := by
  have same_sequences : next.sequences = (m.modifySequence reqId change).sequences := seqs
  refine ⟨sound, ?_, fun id => ?_, fun other => ?_, kinds⟩
  · refine (shaped.modify change width fun recurrent old known => ?_).same_sequences same_sequences
    rw [found] at known
    cases known
    exact aligned recurrent
  · have moved := listed_modify m reqId change id found
    have count := counts id
    have ref := refs id
    have same := listed_same same_sequences id
    omega
  · rw [getSequence, same_sequences]
    exact present_modify m reqId change other

variable (sound : Sound config start m Settled)

include sound

theorem detach_front (shaped : Shaped config m)
    (found : m.getSequence reqId = some sequence) (flat : config.isRecurrentState = false)
    (done : m.detachFrontBlock reqId sequence = some next) : Moves config start m next := by
  unfold detachFrontBlock at done
  by_cases beams : sequence.beamWidth ≠ 1
  · rw [if_pos beams] at done
    cases done
  rw [if_neg beams] at done
  have never : config.isRecurrentState = true → ∀ shape : Sequence n, Aligned shape := fun recurrent => by
    rw [flat] at recurrent
    cases recurrent
  split at done
  · cases done
  next slot front =>
  have counts := fun id => count_set sequence.allocated sequence.numFrontBlocksRemoved slot (.sentinel 0) (.block id) front
  simp only [count_singleton, beq_iff_eq, reduceCtorEq, if_false, add_zero] at counts
  cases slot with
  | sentinel refCount =>
    cases refCount with
    | zero => cases done
    | succ count =>
      cases done
      refine moves_drop (.sentinel (count + 1)) _ (sound.with_sequences _) shaped found (fun _ => rfl) rfl
        (fun _ => rfl) (fun _ => rfl) (fun recurrent => never recurrent _) fun id => ?_
      simpa using counts id
  | block id =>
    dsimp only at done
    split at done
    · cases done
    rename_i released dropped
    cases done
    obtain ⟨used, _⟩ := Sound.dec_cases dropped
    have held : 0 < m.refs id := by
      simpa [refs, block, modifyBlock, modifySequence] using used
    obtain ⟨cleared, steady⟩ := (sound.with_sequences (m.sequences.update reqId fun sequence =>
      { sequence with
        allocated := sequence.allocated.set sequence.numFrontBlocksRemoved (.sentinel 0)
        numFrontBlocksRemoved := sequence.numFrontBlocksRemoved + 1 })).modify_held id
      (fun block => { block with durationMs := none, expirationTime := none }) (.inl held)
      ⟨rfl, rfl, rfl, rfl, rfl, rfl⟩
    obtain ⟨kept, drops⟩ := cleared.drop_block false (fun pending => pending) dropped
    refine moves_drop (.block id) _ kept shaped found (fun other => ?_) drops.sequences (fun other => ?_)
      (fun _ => rfl) (fun recurrent => never recurrent _) fun other => ?_
    · exact (drops.refs other).trans (steady.refs other)
    · exact (drops.placeholder other).trans (steady.placeholder other)
    · rw [count_singleton]
      simpa using counts other

theorem detach_fronts {rounds : Nat} (shaped : Shaped config m)
    (done : detachFrontBlocks config reqId rounds m = some next) : Moves config start m next := by
  induction rounds generalizing m with
  | zero =>
    cases done
    exact ⟨sound, shaped, Balanced.refl _⟩
  | succ rounds ih =>
    unfold detachFrontBlocks at done
    split at done
    · cases done
    next sequence found =>
    split at done
    · next outside =>
      have flat : config.isRecurrentState = false := by
        simp only [outOfWindow, Bool.and_eq_true] at outside
        exact config.swa_not_recurrent outside.1
      split at done
      · cases done
      · rename_i detached step
        have first := detach_front sound shaped found flat step
        exact first.trans (ih first.sound first.shaped done)
    · cases done
      exact ⟨sound, shaped, Balanced.refl _⟩

theorem adjust_blocks (shaped : Shaped config m)
    (done : m.adjustBlocksIfNeeded config reqId = some next) : Moves config start m next := by
  unfold adjustBlocksIfNeeded at done
  split at done
  · cases done
  split at done
  · cases done
  rename_i adjusted step
  have first := detach_fronts sound shaped step
  split at done
  · split at done
    · cases done
    · rename_i cur found
      exact first.trans (allocate_block first.sound first.shaped found _ done)
  · cases done
    exact first

omit sound

theorem relabel (reqId : Nat) (shaped : Shaped config m) (change : Sequence n → Sequence n)
    (slots : ∀ old, (change old).allocated = old.allocated) (ids : ∀ old, (change old).cacheBlockIds = old.cacheBlockIds)
    (width : ∀ old, (change old).beamWidth = old.beamWidth) :
    Shaped config (m.modifySequence reqId change) ∧ Balanced m (m.modifySequence reqId change) := by
  refine ⟨shaped.modify change width fun recurrent old known => ?_, fun id => ?_, present_modify m reqId change,
    fun _ => rfl⟩
  · obtain ⟨rows, filled⟩ := shaped.aligned reqId old known recurrent
    refine ⟨rows, ?_, ?_, ?_⟩
    · rw [slots]
      exact filled.flat
    · rw [width]
      exact filled.wide
    · rw [ids, width]
      exact filled.columns
  · change m.refs id + m.listed id = m.refs id + (m.modifySequence reqId change).listed id
    cases known : m.getSequence reqId with
    | none =>
      rw [listed, listed, modifySequence, Lib.Table.update_missing change known]
    | some old =>
      have same := listed_modify m reqId change id known
      rw [slots] at same
      omega

section Last

theorem flatten_singletons {rows : List (List (Slot n))} (idx : Nat) (single : ∀ row ∈ rows, row.length = 1) :
    rows.flatten.eraseIdx idx = (rows.eraseIdx idx).flatten := by
  induction rows generalizing idx with
  | nil => simp
  | cons row rest ih =>
    obtain ⟨slot, rfl⟩ := length_eq_one_iff.mp (single row mem_cons_self)
    cases idx with
    | zero => simp
    | succ less =>
      have later := ih less (forall_mem_cons.mp single).2
      simp [later]

theorem aligned_erase (sequence : Sequence n) (aligned : Aligned sequence) (beams : sequence.beamWidth = 1) :
    Aligned (popSecondLast sequence) := by
  obtain ⟨rows, filled⟩ := aligned
  have single : ∀ row ∈ rows, row.length = 1 := fun row mem => (filled.wide row mem).trans beams
  have length : sequence.allocated.length = rows.length := by
    rw [filled.flat, append_nil, flatten_length rows single, mul_one]
  refine ⟨rows.eraseIdx (rows.length - 2), ?_, fun row mem => ?_, ?_⟩
  · simp only [popSecondLast]
    rw [length, filled.flat, append_nil, append_nil]
    exact flatten_singletons _ single
  · exact filled.wide row (mem_of_mem_eraseIdx mem)
  · simp only [popSecondLast]
    rw [filled.columns, map_map]
    simp [eraseIdx_map]

theorem release_last (sound : Sound config start m Settled) (shaped : Shaped config m)
    (found : m.getSequence reqId = some sequence)
    (done : m.releaseLastBlock config reqId sequence = some next) : Moves config start m next := by
  unfold releaseLastBlock at done
  split at done
  · next recurrent =>
    split at done
    · rename_i last id before ends
      split at done
      · cases done
      rename_i allowed
      simp only [Bool.or_eq_true, Bool.not_eq_true', decide_eq_true_eq, not_or, ne_eq, Decidable.not_not] at allowed
      split at done
      · cases done
      rename_i dropped drop
      cases done
      obtain ⟨kept, drops⟩ := sound.drop_slot (fun _ pending => pending) drop
      refine moves_drop (.block id) popSecondLast (kept.with_sequences _) shaped found drops.refs
        (by rw [← drops.sequences]; rfl) drops.placeholder (fun _ => rfl) (fun _ => ?_) fun other => ?_
      · exact aligned_erase sequence (shaped.aligned reqId sequence found recurrent) allowed.2
      · have shape : sequence.allocated = before.reverse ++ [.block id, last] := by simpa using congrArg reverse ends
        have idx : (before.reverse ++ [.block id, last]).length - 2 = before.reverse.length := by simp
        simp only [popSecondLast]
        rw [shape, idx, eraseIdx_append_of_length_le le_rfl]
        simp only [Nat.sub_self, eraseIdx_cons_zero, count_append, count_cons, count_nil]
        omega
    · cases done
  · next recurrent =>
    split at done
    · cases done
    rename_i slot ends
    split at done
    · cases done
    rename_i dropped drop
    cases done
    obtain ⟨kept, drops⟩ := sound.drop_slot (fun _ pending => pending) drop
    refine moves_drop slot popLast (kept.with_sequences _) shaped found drops.refs (by rw [← drops.sequences]; rfl)
      drops.placeholder (fun _ => rfl) (fun impossible => absurd impossible recurrent) fun other => ?_
    obtain ⟨before, concat⟩ := getLast?_eq_some_iff.mp ends
    simp only [popLast]
    rw [concat, dropLast_concat, count_append]

end Last
end Manager

variable {n : Nat}

section Cells

theorem flatten_set {width : Nat} (rows : List (List (Slot n))) (blockIdx beam : Nat) (slot : Slot n)
    (wide : ∀ row ∈ rows, row.length = width) (inside : beam < width) :
    rows.flatten.set (blockIdx * width + beam) slot = (rows.modify blockIdx fun row => row.set beam slot).flatten := by
  induction rows generalizing blockIdx with
  | nil => simp
  | cons row rest ih =>
    have length := wide row mem_cons_self
    cases blockIdx with
    | zero =>
      rw [zero_mul, zero_add, flatten_cons, set_append_left _ _ (by omega)]
      simp
    | succ less =>
      have later := ih less (forall_mem_cons.mp wide).2
      have idx : (less + 1) * width + beam = row.length + (less * width + beam) := by
        rw [Nat.succ_mul, length]
        omega
      rw [flatten_cons, idx, set_append_right _ _ (Nat.le_add_right _ _), Nat.add_sub_cancel_left, later]
      simp

theorem cell_set (row : List (Slot n)) (beam other : Nat) (slot : Slot n) (inside : beam < row.length) :
    cell other (row.set beam slot) = if other = beam then slot.id? else cell other row := by
  by_cases same : other = beam
  · subst same
    simp [cell, getElem?_set_self inside]
  · have apart : ¬beam = other := fun equal => same equal.symm
    simp [cell, same, getElem?_set_ne apart]

theorem aligned_set (sequence : Sequence n) (blockIdx beam : Nat) (id : Fin n) (aligned : Aligned sequence)
    (inside : beam < sequence.beamWidth) :
    Aligned { sequence with
      cacheBlockIds := sequence.cacheBlockIds.modify beam fun ids => ids.set blockIdx (some id)
      allocated := sequence.allocated.set (blockIdx * sequence.beamWidth + beam) (.block id) } := by
  obtain ⟨rows, filled⟩ := aligned
  refine ⟨rows.modify blockIdx fun row => row.set beam (.block id), ?_, fun row mem => ?_, ?_⟩
  · rw [filled.flat, append_nil, append_nil]
    exact flatten_set rows blockIdx beam _ filled.wide inside
  · obtain ⟨idx, found⟩ := mem_iff_getElem?.mp mem
    rw [getElem?_modify] at found
    obtain ⟨old, at_, rfl⟩ := Option.map_eq_some_iff.mp found
    have wide := filled.wide old (mem_of_getElem? at_)
    split
    · rw [length_set]
      exact wide
    · exact wide
  rw [filled.columns]
  apply ext_getElem?
  intro other
  rw [getElem?_modify, getElem?_map, getElem?_map]
  by_cases bound : other < sequence.beamWidth
  · rw [getElem?_range bound]
    simp only [Option.map_some, getElem?_nil, Option.toList_none, map_nil, append_nil, Option.map_eq_map, Option.some.injEq]
    apply ext_getElem?
    intro idx
    by_cases here : beam = other
    · subst here
      simp only [if_true, getElem?_set, length_map, getElem?_map, getElem?_modify]
      by_cases at_ : blockIdx = idx
      · subst at_
        cases row : rows[blockIdx]? with
        | none =>
          have outside : ¬blockIdx < rows.length := by
            intro less
            rw [getElem?_eq_getElem less] at row
            cases row
          simp [outside]
        | some old =>
          obtain ⟨less, _⟩ := List.getElem?_eq_some_iff.mp row
          have wide := filled.wide old (mem_of_getElem? row)
          simp [less, cell_set old beam beam (.block id) (by omega), Slot.id?]
      · simp [at_]
    · simp only [here, if_false, getElem?_map, getElem?_modify]
      cases row : rows[idx]? with
      | none => rfl
      | some old =>
        have wide := filled.wide old (mem_of_getElem? row)
        have apart : ¬other = beam := fun equal => here equal.symm
        by_cases at_ : blockIdx = idx
        · simp [at_, cell_set old beam other (.block id) (by omega), apart]
        · simp [at_]
  · rw [getElem?_eq_none (by simpa using bound)]
    rfl

end Cells

namespace Manager
variable {config : WindowConfig} {start : Fin n → KVCacheIndex} {m next : Manager n} {reqId : Nat}
  {sequence : Sequence n}

def putBlock (blockIdx width beam : Nat) (id : Fin n) (sequence : Sequence n) : Sequence n :=
  { sequence with
    cacheBlockIds := sequence.cacheBlockIds.modify beam fun ids => ids.set blockIdx (some id)
    allocated := sequence.allocated.set (blockIdx * width + beam) (.block id) }

theorem replace_beams (idx width : Nat) (key : BlockKey) (isFull : Bool) (left : Nat) :
    ∀ {m : Manager n} {sequence : Sequence n} {old : List (Slot n)} {beam : Nat},
    Sound config start m Settled → Shaped config m → m.getSequence reqId = some sequence →
    sequence.beamWidth = width → (sequence.allocated.drop (idx * width + beam)).take left = old →
    old.length = left → beam + left = width →
    replaceBeams config reqId idx width key isFull (range' beam left) m = some next →
    Sound config start next Settled ∧ Shaped config next ∧
      (∀ id, next.refs id + m.listed id = m.refs id + next.listed id + old.count (.block id)) ∧
      (∀ other, (next.getSequence other).isSome = (m.getSequence other).isSome) ∧
      (∀ id, (next.block id).isPlaceholder = (m.block id).isPlaceholder) := by
  induction left with
  | zero =>
    intro m sequence old beam sound shaped _ _ slots _ _ done
    cases done
    subst slots
    exact ⟨sound, shaped, fun id => by simp, fun _ => rfl, fun _ => rfl⟩
  | succ left ih =>
    intro m sequence old beam sound shaped found wide slots length total done
    rw [range'_succ] at done
    unfold replaceBeams at done
    split at done
    · cases done
    next id acquired got =>
    have given := sound.get_free _ _ _ id acquired got
    have referenced := given.sound.inc_ref id (.inr (.inr rfl))
    obtain ⟨keyed, same⟩ := (referenced.settle (by rw [Sound.inc_refs, if_pos rfl]; exact Nat.succ_pos _)).set_key
      id key isFull
    have seqs : ((acquired.incRefCount id).setBlockKey id key isFull).sequences = m.sequences := given.steady.sequences
    have refs : ∀ other, ((acquired.incRefCount id).setBlockKey id key isFull).refs other =
        m.refs other + [Slot.block id].count (.block other) := by
      intro other
      rw [same.refs, Sound.inc_refs, given.steady.refs, count_singleton]
      simp [@eq_comm _ other]
    have placeholders : ∀ other, (((acquired.incRefCount id).setBlockKey id key isFull).block other).isPlaceholder =
        (m.block other).isPlaceholder := by
      intro other
      rw [same.placeholder, ← given.steady.placeholder other]
      exact Sound.modify_keeps rfl other
    dsimp only at done
    generalize (acquired.incRefCount id).setBlockKey id key isFull = mid at done keyed seqs refs placeholders
    have found_mid := found_same seqs found
    cases old with
    | nil => cases length
    | cons head rest =>
      have at_head : sequence.allocated[idx * width + beam]? = some head := by
        have first := congrArg (fun slots : List (Slot n) => slots[0]?) slots
        simpa [getElem?_take, getElem?_drop] using first
      have later : ((putBlock idx width beam id sequence).allocated.drop (idx * width + (beam + 1))).take
          left = rest := by
        have tail := congrArg (fun slots : List (Slot n) => slots.drop 1) slots
        simp only [putBlock]
        rw [drop_set_of_lt (by omega), ← add_assoc, ← drop_drop]
        simpa [drop_take] using tail
      have counts := fun other => count_set sequence.allocated (idx * width + beam) head (.block id)
        (.block other) at_head
      have moved := fun other => listed_modify _ reqId (putBlock idx width beam id) other found_mid
      have shape : Shaped config (mid.modifySequence reqId (putBlock idx width beam id)) := by
        refine (shaped.same_sequences seqs).modify _ (fun _ => rfl) fun recurrent kept known => ?_
        rw [found_mid] at known
        cases known
        rw [← wide]
        exact aligned_set sequence idx beam id (shaped.aligned reqId sequence found recurrent) (by omega)
      have found_next : (mid.modifySequence reqId (putBlock idx width beam id)).getSequence reqId =
          some (putBlock idx width beam id sequence) := by
        rw [found_modify, if_pos rfl, found_mid]
        rfl
      obtain ⟨kept, last, balance, present, kinds⟩ := ih (keyed.with_sequences _) shape found_next wide later
        (by simpa using length) (by omega) done
      refine ⟨kept, last, fun other => ?_, fun other => ?_, fun other => (kinds other).trans (placeholders other)⟩
      · have one : next.refs other + (mid.modifySequence reqId (putBlock idx width beam id)).listed other =
            mid.refs other + next.listed other + rest.count (.block other) := balance other
        have two := moved other
        have three := counts other
        have four := refs other
        have same_listed := listed_same seqs other
        change _ + sequence.allocated.count _ = _ + (sequence.allocated.set _ _).count _ at two
        rw [count_cons]
        rw [count_singleton] at three
        omega
      · rw [present]
        refine (present_modify _ reqId _ other).trans ?_
        rw [getSequence, getSequence, seqs]

theorem replace_shared (idx : Nat) (sound : Sound config start m Settled) (shaped : Shaped config m)
    (found : m.getSequence reqId = some sequence)
    (done : m.replaceSharedBlock config reqId sequence idx = some next) : Moves config start m next := by
  unfold replaceSharedBlock at done
  dsimp only at done
  split at done
  · cases done
  split at done
  · split at done
    · cases done
      exact ⟨sound, shaped, Balanced.refl _⟩
    split at done
    · cases done
    rename_i dropped drop
    split at done
    · cases done
    obtain ⟨kept, drops⟩ := sound.drop_slots (fun _ pending => pending) _ dropped drop
    rw [range_eq_range'] at done
    have short : ((sequence.allocated.drop (idx * sequence.beamWidth)).take sequence.beamWidth).length =
        sequence.beamWidth := by
      have bound := length_take_le sequence.beamWidth (sequence.allocated.drop (idx * sequence.beamWidth))
      omega
    obtain ⟨last, shape, balance, present, kinds⟩ := replace_beams idx sequence.beamWidth _ _ _ kept
      (shaped.same_sequences drops.sequences) (found_same drops.sequences found) rfl rfl short (zero_add _) done
    refine ⟨last, shape, fun id => ?_, fun other => ?_, fun id => ?_⟩
    · have one := balance id
      have two := drops.refs id
      have same := listed_same drops.sequences id
      rw [add_zero] at one
      omega
    · rw [present, getSequence, getSequence, drops.sequences]
    · rw [kinds, drops.placeholder]
  · cases done

structure Ready (config : WindowConfig) (start : Fin n → KVCacheIndex) (m : Manager n) (pins : List (Fin n)) : Prop where
  sound : Sound config start m Settled
  shaped : Shaped config m
  counted : ∀ id, m.refs id = m.listed id + pins.count id

variable {pins : List (Fin n)}
variable (ready : Ready config start m pins)

include ready

theorem Ready.moves (moves : Moves config start m next) : Ready config start next pins := by
  refine ⟨moves.sound, moves.shaped, fun id => ?_⟩
  have balance := moves.balanced.refs id
  have counted := ready.counted id
  omega

theorem Ready.steady (sound : Sound config start next Settled) (steady : Steady m next) : Ready config start next pins :=
  ready.moves ⟨sound, ready.shaped.same_sequences steady.sequences, steady.balanced⟩

theorem Ready.pin (pinned : List (Fin n)) (sound : Sound config start next Settled)
    (holds : Pins m next pinned) : Ready config start next (pinned ++ pins) := by
  refine ⟨sound, ready.shaped.same_sequences holds.sequences, fun id => ?_⟩
  have counted := ready.counted id
  rw [holds.refs, listed_same holds.sequences, count_append]
  omega

omit ready

theorem Ready.unpin (ready : Ready config start m pins) (ids rest : List (Fin n)) (outstanding : pins.Perm (ids ++ rest))
    (done : unpinBlocksById ids m = some next) : Ready config start next rest := by
  obtain ⟨sound, drops⟩ := ready.sound.unpin ids next (fun _ pending => pending) done
  refine ⟨sound, ready.shaped.same_sequences drops.sequences, fun id => ?_⟩
  have same := listed_same drops.sequences id
  have counted := ready.counted id
  have dropped := drops.refs id
  rw [count_map_of_injective _ Slot.block fun _ _ same => by cases same; rfl] at dropped
  rw [outstanding.count_eq, count_append] at counted
  omega

theorem Shaped.remove (shaped : Shaped config m) (reqId : Nat) :
    Shaped config { m with sequences := m.sequences.remove reqId } := by
  have finds : ∀ other sequence, ({ m with sequences := m.sequences.remove reqId } : Manager n).getSequence other =
      some sequence → m.getSequence other = some sequence := by
    intro other sequence found
    rw [getSequence, Lib.Table.find_remove other shaped.distinct] at found
    split at found
    · cases found
    · exact found
  exact ⟨shaped.distinct.sublist (Lib.Table.keys_remove),
    fun other sequence found => shaped.wide other sequence (finds other sequence found),
    fun other sequence found => shaped.aligned other sequence (finds other sequence found)⟩

theorem Ready.release_blocks (ready : Ready config start m pins) (req : Option CacheRequest)
    (found : m.getSequence reqId = some sequence)
    (done : m.releaseBlocks config reqId sequence req = some next) : Ready config start next pins := by
  unfold releaseBlocks at done
  dsimp only at done
  split at done
  · cases done
  rename_i stored storing
  cases done
  have extracted : Sound config start { m with sequences := m.sequences.remove reqId } Settled :=
    ready.sound.with_sequences _
  have kept : Sound config start stored Settled ∧
      Steady { m with sequences := m.sequences.remove reqId } stored := by
    split at storing
    · cases storing
      exact ⟨extracted, Steady.refl _⟩
    split at storing
    · cases storing
      exact ⟨extracted, Steady.refl _⟩
    · split at storing
      · cases storing
      · exact extracted.store_steady _ _ stored storing
  obtain ⟨sound, steady⟩ := kept
  have removed := fun id => Lib.Table.total_remove
    (fun sequence => sequence.allocated.count (Slot.block id)) sequence found
  have same_listed : ∀ id, stored.listed id + sequence.allocated.count (.block id) = m.listed id := by
    intro id
    rw [listed, steady.sequences]
    exact removed id
  have counts : ∀ id, stored.refs id = stored.listed id + sequence.allocated.reverse.count (.block id) + pins.count id := by
    intro id
    rw [count_reverse, same_listed, ← ready.counted]
    exact steady.refs id
  obtain ⟨last, drops⟩ := sound.release_slots (fun _ pending => pending) sequence.allocated.reverse fun id => by
    have count := counts id
    omega
  refine ⟨last, ?_, fun id => ?_⟩
  · exact ((ready.shaped.remove reqId).same_sequences steady.sequences).same_sequences drops.sequences
  have dropped := drops.refs id
  have count := counts id
  have same := listed_same drops.sequences id
  omega

end Manager

end TrtLlm.Kv
