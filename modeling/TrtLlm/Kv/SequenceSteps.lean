import TrtLlm.Kv.AllocateSteps

set_option autoImplicit false

namespace TrtLlm.Kv
open List

namespace Manager
variable {n : Nat} {config : WindowConfig} {start : Fin n → KVCacheIndex} {m : Manager n} {pending : Fin n → Prop}

structure Pins (m next : Manager n) (pinned : List (Fin n)) : Prop where
  refs : ∀ id, next.refs id = m.refs id + pinned.count id
  sequences : next.sequences = m.sequences
  placeholder : ∀ id, (next.block id).isPlaceholder = (m.block id).isPlaceholder

theorem Steady.pins {next : Manager n} (steady : Steady m next) : Pins m next [] :=
  ⟨steady.refs, steady.sequences, steady.placeholder⟩

theorem Pins.steady {next : Manager n} (pins : Pins m next []) : Steady m next :=
  ⟨pins.refs, pins.sequences, pins.placeholder⟩

theorem Pins.append {second third : Manager n} {first later : List (Fin n)} (left : Pins m second first)
    (right : Pins second third later) : Pins m third (first ++ later) where
  refs := by
    intro id
    rw [right.refs, left.refs, count_append, add_assoc]
  sequences := right.sequences.trans left.sequences
  placeholder := fun id => (right.placeholder id).trans (left.placeholder id)

section
variable (sound : Sound config start m pending)

include sound

theorem Sound.store_block (id : Fin n) (node : Nat) (key : BlockKey)
    (next : Manager n) (done : m.storeBlock config id node key = some next) :
    Sound config start next pending ∧ Steady m next := by
  unfold storeBlock at done
  split at done
  · cases done
  next loose detached =>
  obtain ⟨kept, steady, bare⟩ := sound.detach id loose detached
  obtain ⟨keyed, same⟩ := kept.set_key id key (decide (key.uniqueTokens.length = config.tokensPerBlock))
  have bare_keyed : ((loose.setBlockKey id key (decide (key.uniqueTokens.length = config.tokensPerBlock))).block
      id).lookupNode = none := by
    simpa [setBlockKey, modifyBlock, block] using bare
  obtain ⟨stored, last⟩ := keyed.attach id node next bare_keyed done
  exact ⟨stored, (steady.trans same).trans last⟩

theorem Sound.pin (id : Fin n) : Sound config start (m.pinBlock id) pending ∧ Pins m (m.pinBlock id) [id] := by
  have counts : ∀ base : Manager n, Steady m base → Pins m (base.incRefCount id) [id] := by
    intro base steady
    refine ⟨fun other => ?_, steady.sequences, fun other => ?_⟩
    · rw [Sound.inc_refs, steady.refs, count_singleton]
      simp [@eq_comm _ other]
    · rw [← steady.placeholder other]
      exact Sound.modify_keeps rfl other
  unfold pinBlock
  split
  · next used =>
    have held : 0 < m.refs id := by simpa [Block.hasRefs, refs] using used
    exact ⟨sound.inc_ref id (.inl held), counts m (Steady.refl m)⟩
  · have claimed := sound.claim id (some (m.block id).priority) (m.block id).durationMs
    have referenced := claimed.inc_ref id (.inr (.inr rfl))
    refine ⟨referenced.settle ?_, counts _ (Steady.claim m id _ _)⟩
    rw [Sound.inc_refs, if_pos rfl]
    exact Nat.succ_pos _

theorem Sound.pin_when (pinBlocks : Bool) (id : Fin n) :
    Sound config start (pinWhen pinBlocks m id).1 pending ∧ Pins m (pinWhen pinBlocks m id).1 (pinWhen pinBlocks m id).2 := by
  cases pinBlocks with
  | true => exact sound.pin id
  | false => exact ⟨sound, (Steady.refl m).pins⟩

theorem Sound.store_slot (node : Nat) (key : BlockKey) (slot : Slot n)
    (pinBlocks : Bool) (next : Manager n) (pinned : List (Fin n))
    (done : m.storeSlot config node key slot pinBlocks = some (next, pinned)) :
    Sound config start next pending ∧ Pins m next pinned := by
  unfold storeSlot at done
  cases slot with
  | sentinel refCount =>
    cases done
    exact ⟨sound, (Steady.refl m).pins⟩
  | block id =>
    dsimp only at done
    split at done
    · next existing _ =>
      have res := Option.some.inj done
      split at res
      · cases res
        exact ⟨sound, (Steady.refl m).pins⟩
      · have both := sound.pin_when pinBlocks existing
        rw [res] at both
        exact both
    · split at done
      · cases done
      next stored put =>
      have res := Option.some.inj done
      obtain ⟨kept, steady⟩ := sound.store_block id node key stored put
      split at res
      · cases res
        exact ⟨kept, steady.pins⟩
      · have both := kept.pin_when pinBlocks id
        rw [res] at both
        exact ⟨both.1, steady.pins.append both.2⟩

end

theorem Sound.store_slots (pinBlocks : Bool) (slots : List (Nat × BlockKey × Slot n)) (next : Manager n)
    (pinned : List (Fin n)) (sound : Sound config start m pending)
    (done : storeSlots config pinBlocks slots m = some (next, pinned)) :
    Sound config start next pending ∧ Pins m next pinned := by
  induction slots generalizing m pinned with
  | nil =>
    cases done
    exact ⟨sound, (Steady.refl _).pins⟩
  | cons entry rest ih =>
    obtain ⟨node, key, slot⟩ := entry
    unfold storeSlots at done
    split at done
    · cases done
    next stored first one =>
    split at done
    · cases done
    next finished others more =>
    cases done
    obtain ⟨kept, pins⟩ := sound.store_slot node key slot pinBlocks stored first one
    obtain ⟨last, later⟩ := ih others kept more
    exact ⟨last, pins.append later⟩

theorem Sound.store_blocks (sound : Sound config start m pending) {keys : List BlockKey} {slots : List (Slot n)}
    {pinBlocks : Bool} {next : Manager n} {pinned : List (Fin n)}
    (done : m.storeBlocks config keys slots pinBlocks = some (next, pinned)) :
    Sound config start next pending ∧ Pins m next pinned := by
  obtain ⟨kept, pins⟩ := (sound.insert_nodes (keys.take slots.length)).store_slots pinBlocks _ next pinned done
  exact ⟨kept, ⟨pins.refs, pins.sequences, pins.placeholder⟩⟩

theorem store_no_pins (slots : List (Nat × BlockKey × Slot n)) (next : Manager n) (pinned : List (Fin n))
    (done : storeSlots config false slots m = some (next, pinned)) : pinned = [] := by
  induction slots generalizing m pinned with
  | nil =>
    cases done
    rfl
  | cons entry rest ih =>
    obtain ⟨node, key, slot⟩ := entry
    unfold storeSlots at done
    split at done
    · cases done
    next stored first one =>
    split at done
    · cases done
    next finished others more =>
    cases done
    have none_first : first = [] := by
      unfold storeSlot at one
      cases slot with
      | sentinel refCount => cases one; rfl
      | block id =>
        dsimp only at one
        split at one
        · have res := Option.some.inj one
          split at res <;> cases res <;> rfl
        split at one
        · cases one
        · next kept _ =>
          have res := Option.some.inj one
          split at res <;> cases res <;> rfl
    rw [none_first, ih others more]
    rfl

section
variable (sound : Sound config start m pending)

include sound

theorem Sound.store_steady (keys : List BlockKey) (slots : List (Slot n))
    (next : Manager n) (done : (m.storeBlocks config keys slots false).map Prod.fst = some next) :
    Sound config start next pending ∧ Steady m next := by
  obtain ⟨⟨res, pinned⟩, stored, rfl⟩ := Option.map_eq_some_iff.mp done
  obtain ⟨kept, pins⟩ := sound.store_blocks stored
  have bare : pinned = [] := store_no_pins _ res pinned stored
  rw [bare] at pins
  exact ⟨kept, pins.steady⟩

end

theorem Sound.unpin (ids : List (Fin n)) (next : Manager n) (sound : Sound config start m pending)
    (settled : ∀ id, ¬pending id) (done : unpinBlocksById ids m = some next) :
    Sound config start next pending ∧ Drops m next (ids.map .block) := by
  induction ids generalizing m with
  | nil =>
    cases done
    exact ⟨sound, Drops.nil _⟩
  | cons id rest ih =>
    unfold unpinBlocksById at done
    split at done
    · cases done
    split at done
    · cases done
    next released dropped =>
    obtain ⟨kept, first⟩ := sound.drop_block false (settled id) dropped
    obtain ⟨last, more⟩ := ih kept done
    exact ⟨last, first.cons more⟩

variable {next : Manager n}

def Settled : Fin n → Prop := fun _ => False

structure Moves (config : WindowConfig) (start : Fin n → KVCacheIndex) (m next : Manager n) : Prop where
  sound : Sound config start next Settled
  shaped : Shaped config next
  balanced : Balanced m next

theorem Moves.trans {first second third : Manager n} (left : Moves config start first second)
    (right : Moves config start second third) : Moves config start first third :=
  ⟨right.sound, right.shaped, left.balanced.trans right.balanced⟩

section Allocate
variable {reqId : Nat} {seq : Sequence n}

theorem Growing.allocate_rest {reqId width : Nat} (prio : RetentionPriority) (durationMs : Option Nat)
    (left : Nat) : ∀ {m next : Manager n} {pending : Fin n → Prop} {part : List (Slot n)},
    Sound config start m pending → Growing config m reqId width part → part.length + left = width →
    allocateForBeams config reqId prio durationMs (range' part.length left) m = some next →
    Sound config start next pending ∧ Balanced m next ∧
      ∃ full, full.length = width ∧ Growing config next reqId width full := by
  induction left with
  | zero =>
    intro m next pending part sound growing total done
    cases done
    exact ⟨sound, Balanced.refl _, part, total, growing⟩
  | succ left ih =>
    intro m next pending part sound growing total done
    rw [range'_succ] at done
    unfold allocateForBeams at done
    split at done
    · cases done
    next id acquired got =>
    have given := sound.get_free _ _ _ id acquired got
    obtain ⟨settled, grown, balanced⟩ := given.add growing
    have length : (part ++ [Slot.block id]).length = part.length + 1 := by rw [length_append, length_singleton]
    obtain ⟨kept, later, full⟩ := ih settled grown (by rw [length]; omega) (by rw [length]; exact done)
    exact ⟨kept, balanced.trans later, full⟩

theorem allocate_fresh (sound : Sound config start m Settled) (shaped : Shaped config m)
    (found : m.getSequence reqId = some seq) {shareAmongBeams : Bool}
    (done : m.allocateFresh config reqId seq shareAmongBeams = some next) : Moves config start m next := by
  have pos := shaped.wide reqId seq found
  unfold allocateFresh at done
  by_cases short : (!m.hasFreeBlocks (if shareAmongBeams then 1 else seq.beamWidth)) = true
  · rw [if_pos short] at done
    cases done
  rw [if_neg short] at done
  cases shareAmongBeams with
  | true =>
    cases got : m.getFreeBlock config seq.decodeRetentionPriority seq.decodeDurationMs false with
    | none => rw [got] at done; cases done
    | some pair =>
      obtain ⟨id, acquired⟩ := pair
      rw [got] at done
      cases done
      have given := sound.get_free _ _ _ id acquired got
      have found_next := found_same given.steady.sequences found
      obtain ⟨added, balanced, counts⟩ := given.sound.add_all (.block id) reqId seq.beamWidth given.out
        (by rw [found_next]; rfl)
      refine ⟨added.settle ?_, (shaped.same_sequences given.steady.sequences).add_all _ reqId seq found_next,
        given.steady.balanced.trans balanced⟩
      rw [counts, if_pos rfl]
      omega
  | false =>
    rw [range_eq_range'] at done
    obtain ⟨kept, balanced, full, length, growing⟩ := Growing.allocate_rest _ _ seq.beamWidth sound
      (shaped.grow found) (by simp) done
    exact ⟨kept, growing.finish pos length, balanced⟩

variable {rows : List (List (Slot n))}

theorem popped_growing {row : List (Slot n)} (shaped : Shaped config m)
    (found : m.getSequence reqId = some seq) (filled : Filled seq (rows ++ [row]) []) :
    Growing config (m.modifySequence reqId popLastBlocks) reqId seq.beamWidth [] := by
  refine ⟨?_, fun other another ne known => ?_, ?_⟩
  · rw [modifySequence, Lib.Table.keys_update]
    exact shaped.distinct
  · rw [found_modify, if_neg ne] at known
    exact ⟨shaped.wide other another known, shaped.aligned other another known⟩
  · refine ⟨popLastBlocks seq, by rw [found_modify, if_pos rfl, found]; rfl, rfl, fun _ => ?_⟩
    exact ⟨rows, filled_pop filled (shaped.wide reqId seq found)⟩

theorem replace_row {lasts : List (Fin n)} {placeholder : Fin n} {acquired swapped : Manager n}
    {beamWidthChanged : Bool} (shaped : Shaped config m) (found : m.getSequence reqId = some seq)
    (filled : Filled seq (rows ++ [lasts.map Slot.block]) [])
    (given : Given config start m acquired Settled true placeholder)
    (shared : beamWidthChanged = false ∨ ∀ last ∈ lasts, some last = lasts.head?)
    (swap : swapInPlaceholder placeholder reqId ((range seq.beamWidth).zip lasts)
      (acquired.modifySequence reqId popLastBlocks) = some swapped)
    (restore : restoreLast config reqId beamWidthChanged seq.decodeRetentionPriority
      seq.decodeDurationMs ((range seq.beamWidth).zip lasts) swapped = some next) : Moves config start m next := by
  have pos := shaped.wide reqId seq found
  have width : lasts.length = seq.beamWidth := by
    have wide := filled.wide (lasts.map Slot.block) (by simp)
    rwa [length_map] at wide
  have found_next := found_same given.steady.sequences found
  have shaped_next := shaped.same_sequences given.steady.sequences
  rw [range_eq_range', ← width] at swap restore
  have popped_sound : Sound config start (acquired.modifySequence reqId popLastBlocks)
      (fun id => Settled id ∨ id = placeholder) := given.sound.with_sequences _
  obtain ⟨loose, row, moved, present, kinds, uses⟩ := swap_in_spec placeholder reqId lasts popped_sound (.inr rfl) (popped_growing shaped_next found_next filled) (by simpa using width) swap
  have full_row := row.finish pos (by simp [width])
  obtain ⟨own, own_found, own_width, _⟩ := row.own
  have grown := full_row.grow own_found
  rw [own_width] at grown
  obtain ⟨kept, ⟨full, length, growing⟩, balanced, grows, returned⟩ := restore_spec reqId beamWidthChanged
    seq.decodeRetentionPriority seq.decodeDurationMs lasts loose (fun id mem => .inr mem) grown
    (by simpa using width) restore
  have used_placeholder : 0 < next.refs placeholder := by
    have count := uses ((given.steady.placeholder placeholder).trans given.kind)
    have more := grows placeholder
    omega
  have used_lasts : ∀ last ∈ lasts, 0 < next.refs last := by
    intro last mem
    rcases shared with unchanged | equal
    · obtain ⟨beam, inside, rfl⟩ := mem_iff_getElem.mp mem
      refine returned beam _ (mem_iff_getElem.mpr ⟨beam, by simpa using inside, ?_⟩) (.inl unchanged)
      simp
    have first := equal last mem
    refine returned 0 last (mem_iff_getElem?.mpr ⟨0, ?_⟩) (.inr rfl)
    rw [head?_eq_getElem?] at first
    rw [getElem?_zip_eq_some]
    have some_beam : 0 < lasts.length := by omega
    exact ⟨(getElem?_range' some_beam).trans (by simp), first.symm⟩
  refine ⟨kept.repend fun id => ?_, growing.finish pos length, ?_⟩
  · constructor
    · rintro (used | (absurd_case | rfl) | mem)
      · exact .inl used
      · exact absurd_case.elim
      · exact .inl used_placeholder
      · exact .inl (used_lasts id mem)
    · rintro (used | absurd_case)
      · exact .inl used
      · exact absurd_case.elim
  · refine ⟨fun id => ?_, fun other => ?_, fun id => ?_⟩
    · have popped := listed_modify _ reqId popLastBlocks id found_next
      have flat := (filled_pop filled (shaped_next.wide reqId seq found_next)).flat
      have injective : Function.Injective (Slot.block : Fin n → Slot n) := fun _ _ same => Slot.block.inj same
      rw [flat, filled.flat, flatten_append, flatten_singleton, append_nil, append_nil,
        count_append, count_map_of_injective lasts Slot.block injective] at popped
      have one := given.steady.balanced.refs id
      have two := moved id
      have three := balanced.refs id
      change _ + _ + _ = acquired.refs id + _ at two
      omega
    · rw [balanced.present, present, present_modify]
      exact given.steady.balanced.present other
    · exact ((balanced.placeholder id).trans (kinds id)).trans (given.steady.placeholder id)

theorem nonempty_rows (filled : Filled seq rows [])
    (some_ids : seq.cacheBlockIds.headD [] ≠ []) : ∃ init row, rows = init ++ [row] := by
  refine (eq_nil_or_concat' rows).resolve_left fun bare => some_ids ?_
  rw [filled.columns, bare]
  cases seq.beamWidth with
  | zero => rfl
  | succ less => simp [range_succ_eq_map]

section
variable (sound : Sound config start m Settled) (shaped : Shaped config m)
    (found : m.getSequence reqId = some seq)

include sound shaped found

theorem try_allocate (recurrent : config.isRecurrentState = true) (shareAmongBeams : Bool)
    (done : m.tryAllocatePlaceholderForLinearAttention config reqId seq shareAmongBeams = some (true, next)) :
    Moves config start m next := by
  obtain ⟨all, filled⟩ := shaped.aligned reqId seq found recurrent
  unfold tryAllocatePlaceholderForLinearAttention at done
  cases ids : seq.cacheBlockIds.headD [] with
  | nil => rw [ids] at done; cases done
  | cons head tail =>
    obtain ⟨init, row, rfl⟩ := nonempty_rows filled (by rw [ids]; exact cons_ne_nil _ _)
    rw [ids] at done
    cases read : lastBlocks seq with
    | none => rw [read] at done; cases done
    | some lasts =>
      have same_row := last_row filled read
      subst same_row
      cases lasts with
      | nil => rw [read] at done; cases done
      | cons first others =>
        rw [read] at done
        dsimp only at done
        split at done
        · cases done
        split at done
        · cases done
        next placeholder acquired got =>
        have given := sound.get_free _ _ _ placeholder acquired got
        generalize changed : (decide (seq.beamWidth ≠ 1) &&
          ((others.all fun last => decide (last = first)) != shareAmongBeams)) = beamWidthChanged at done
        split at done
        · cases done
        next parted =>
        split at done
        · cases done
        rename_i swapped swap
        split at done
        · cases done
        rename_i restored restore
        cases done
        refine replace_row shaped found filled given ?_ swap restore
        simp only [Bool.and_eq_true, Bool.not_eq_true', not_and, Bool.not_eq_false, all_eq_true, decide_eq_true_eq] at parted
        cases mode : beamWidthChanged with
        | false => exact .inl rfl
        | true =>
          right
          intro last mem
          rcases mem_cons.mp mem with rfl | later
          · rfl
          · rw [parted mode last later]
            rfl

theorem allocate_block (shareAmongBeams : Bool)
    (done : m.allocateBlock config reqId seq shareAmongBeams = some next) : Moves config start m next := by
  unfold allocateBlock at done
  split at done
  · next recurrent =>
    cases tried : m.tryAllocatePlaceholderForLinearAttention config reqId seq shareAmongBeams with
    | none => rw [tried] at done; cases done
    | some pair =>
      obtain ⟨took, allocated⟩ := pair
      rw [tried] at done
      cases took with
      | true =>
        cases done
        exact try_allocate sound shaped found recurrent shareAmongBeams tried
      | false => exact allocate_fresh sound shaped found done
  · exact allocate_fresh sound shaped found done

end
end Allocate
end Manager

end TrtLlm.Kv
