import TrtLlm.Kv.References

set_option autoImplicit false

namespace TrtLlm.Kv
open List

variable {n : Nat}

def cell (beam : Nat) (row : List (Slot n)) : Option (Fin n) := (row[beam]?).bind Slot.id?

-- The flat list of slots is the rows one after the other, the last possibly unfinished, and the ids of a beam are
-- its column.
structure Filled (sequence : Sequence n) (rows : List (List (Slot n))) (part : List (Slot n)) : Prop where
  flat : sequence.allocated = rows.flatten ++ part
  wide : ∀ row ∈ rows, row.length = sequence.beamWidth
  columns : sequence.cacheBlockIds = (List.range sequence.beamWidth).map fun beam =>
    rows.map (cell beam) ++ (part[beam]?).toList.map Slot.id?

def Aligned (sequence : Sequence n) : Prop := ∃ rows, Filled sequence rows []

section
variable (sequence : Sequence n) (rows : List (List (Slot n))) (part : List (Slot n)) (filled : Filled sequence rows part)

include filled

theorem filled_add (slot : Slot n) : Filled { sequence with
      cacheBlockIds := sequence.cacheBlockIds.modify part.length fun ids => ids ++ [slot.id?]
      allocated := sequence.allocated ++ [slot] } rows (part ++ [slot]) where
  flat := by rw [filled.flat, append_assoc]
  wide := filled.wide
  columns := by
    apply ext_getElem?
    intro beam
    rw [filled.columns, getElem?_modify, getElem?_map, getElem?_map]
    by_cases inside : beam < sequence.beamWidth
    · rw [getElem?_range inside]
      by_cases here : part.length = beam
      · subst here
        simp
      rcases Nat.lt_or_gt_of_ne here with before | after
      · have bare : part[beam]? = none := getElem?_eq_none (Nat.le_of_lt before)
        have bare_more : (part ++ [slot])[beam]? = none :=
          getElem?_eq_none (by rw [length_append, length_singleton]; omega)
        simp [here, bare, bare_more]
      · simp [here, getElem?_append_left after]
    · rw [getElem?_eq_none (by simpa using inside)]
      rfl

theorem filled_row (full : part.length = sequence.beamWidth) : Filled sequence (rows ++ [part]) [] where
  flat := by rw [filled.flat, flatten_append, flatten_singleton, append_nil]
  wide := by
    exact forall_mem_append.mpr ⟨filled.wide, forall_mem_singleton.mpr full⟩
  columns := by
    rw [filled.columns]
    refine map_congr_left fun beam mem => ?_
    have inside : beam < part.length := by rw [full]; exact mem_range.mp mem
    simp [cell, getElem?_eq_getElem inside]

end

namespace Manager
variable {config : WindowConfig} {m : Manager n}

-- Only a recurrent window relies on the agreement of the two views.
structure Shaped (config : WindowConfig) (m : Manager n) : Prop where
  distinct : (m.sequences.map Prod.fst).Nodup
  wide : ∀ requestId sequence, m.getSequence requestId = some sequence → 0 < sequence.beamWidth
  aligned : ∀ requestId sequence, m.getSequence requestId = some sequence →
    config.isRecurrentState = true → Aligned sequence

structure Growing (config : WindowConfig) (m : Manager n) (requestId width : Nat) (part : List (Slot n)) : Prop where
  distinct : (m.sequences.map Prod.fst).Nodup
  others : ∀ other sequence, other ≠ requestId → m.getSequence other = some sequence →
    0 < sequence.beamWidth ∧ (config.isRecurrentState = true → Aligned sequence)
  own : ∃ sequence, m.getSequence requestId = some sequence ∧ sequence.beamWidth = width ∧
    (config.isRecurrentState = true → ∃ rows, Filled sequence rows part)

theorem Shaped.grow (shaped : Shaped config m) {requestId : Nat} {sequence : Sequence n}
    (found : m.getSequence requestId = some sequence) : Growing config m requestId sequence.beamWidth [] where
  distinct := shaped.distinct
  others := fun other sequence _ known => ⟨shaped.wide other sequence known, shaped.aligned other sequence known⟩
  own := ⟨sequence, found, rfl, shaped.aligned requestId sequence found⟩

variable {requestId width : Nat} {part : List (Slot n)}

theorem Growing.finish (growing : Growing config m requestId width part)
    (pos : 0 < width) (full : part.length = width) : Shaped config m := by
  obtain ⟨own, found, wide, filled⟩ := growing.own
  refine ⟨growing.distinct, fun other sequence known => ?_, fun other sequence known recurrent => ?_⟩
  · by_cases same : other = requestId
    · rw [same, found] at known
      cases known
      rw [wide]
      exact pos
    · exact (growing.others other sequence same known).1
  · by_cases same : other = requestId
    · rw [same, found] at known
      cases known
      obtain ⟨rows, fill⟩ := filled recurrent
      exact ⟨_, filled_row _ rows part fill (full.trans wide.symm)⟩
    · exact (growing.others other sequence same known).2 recurrent

theorem Growing.same_sequences {next : Manager n}
    (growing : Growing config m requestId width part) (same : next.sequences = m.sequences) :
    Growing config next requestId width part where
  distinct := by rw [same]; exact growing.distinct
  others := fun other sequence ne known =>
    growing.others other sequence ne (by rw [getSequence, ← same]; exact known)
  own := by
    obtain ⟨own, found, rest⟩ := growing.own
    exact ⟨own, by rw [getSequence, same]; exact found, rest⟩

theorem Shaped.same_sequences {next : Manager n} (shaped : Shaped config m) (same : next.sequences = m.sequences) :
    Shaped config next where
  distinct := by rw [same]; exact shaped.distinct
  wide := fun requestId sequence known => shaped.wide requestId sequence (by rw [getSequence, ← same]; exact known)
  aligned := fun requestId sequence known =>
    shaped.aligned requestId sequence (by rw [getSequence, ← same]; exact known)

theorem Growing.present (growing : Growing config m requestId width part) : (m.getSequence requestId).isSome = true := by
  obtain ⟨own, found, _⟩ := growing.own
  rw [found]
  rfl

theorem Growing.add (growing : Growing config m requestId width part) (slot : Slot n) :
    Growing config (m.addBlockToBeam slot requestId part.length) requestId width (part ++ [slot]) := by
  have finds : ∀ other, (m.addBlockToBeam slot requestId part.length).getSequence other =
      if other = requestId then (m.getSequence requestId).map fun sequence =>
        { sequence with
          cacheBlockIds := sequence.cacheBlockIds.modify part.length fun ids => ids ++ [slot.id?]
          allocated := sequence.allocated ++ [slot] }
      else m.getSequence other := by
    intro other
    rw [getSequence, add_sequences]
    exact found_modify m requestId _ other
  refine ⟨?_, fun other sequence ne known => ?_, ?_⟩
  · rw [add_sequences, Lib.Table.keys_update]
    exact growing.distinct
  · rw [finds, if_neg ne] at known
    exact growing.others other sequence ne known
  obtain ⟨own, found, wide, filled⟩ := growing.own
  refine ⟨{ own with
    cacheBlockIds := own.cacheBlockIds.modify part.length fun ids => ids ++ [slot.id?]
    allocated := own.allocated ++ [slot] }, by rw [finds, if_pos rfl, found]; rfl, wide, fun recurrent => ?_⟩
  obtain ⟨rows, fill⟩ := filled recurrent
  exact ⟨rows, filled_add own rows part fill slot⟩

section
variable {start : Fin n → KVCacheIndex} {acquired : Manager n} {pending : Fin n → Prop} {kind : Bool} {id : Fin n}

theorem Given.out (_ : Given config start m acquired pending kind id) (other : Fin n) (same : Slot.block id = .block other) :
    0 < acquired.refs other ∨ pending other ∨ other = id :=
  .inr (.inr (Slot.block.inj same).symm)

theorem Given.add (given : Given config start m acquired pending kind id) (growing : Growing config m requestId width part) :
    let next := acquired.addBlockToBeam (.block id) requestId part.length
    Sound config start next pending ∧ Growing config next requestId width (part ++ [.block id]) ∧ Balanced m next := by
  have grown := growing.same_sequences given.steady.sequences
  have added := given.sound.add_block (.block id) requestId part.length given.out
  exact ⟨added.settle (add_used requestId acquired part.length id), grown.add (.block id),
    given.steady.balanced.trans (add_balanced (.block id) requestId acquired part.length grown.present)⟩

end

theorem Growing.add_rest (slot : Slot n) (left : Nat) :
    ∀ {m : Manager n} {part : List (Slot n)}, Growing config m requestId width part → part.length + left = width →
      Growing config (addBlockToBeams slot requestId (range' part.length left) m) requestId width
        (part ++ replicate left slot) := by
  induction left with
  | zero =>
    intro m part growing _
    rw [replicate_zero, append_nil]
    exact growing
  | succ left ih =>
    intro m part growing total
    have next := ih (growing.add slot) (by rw [length_append, length_singleton]; omega)
    rw [length_append, length_singleton] at next
    rw [append_assoc] at next
    exact next

theorem Shaped.add_all (shaped : Shaped config m) (slot : Slot n) (requestId : Nat) (sequence : Sequence n)
    (found : m.getSequence requestId = some sequence) :
    Shaped config (m.addBlockToAllBeams slot requestId sequence.beamWidth) := by
  have grown := (shaped.grow found).add_rest slot sequence.beamWidth (by simp)
  rw [length_nil, ← range_eq_range', nil_append] at grown
  exact grown.finish (shaped.wide requestId sequence found) length_replicate

end Manager

section LastRow

theorem flatten_length {width : Nat} (rows : List (List (Slot n))) (wide : ∀ row ∈ rows, row.length = width) :
    rows.flatten.length = rows.length * width := by
  induction rows with
  | nil => simp
  | cons row rest ih =>
    rw [flatten_cons, length_append, wide row mem_cons_self, ih (forall_mem_cons.mp wide).2, length_cons, Nat.succ_mul]
    omega

theorem mapM_some {Item : Type} (items : List (Option Item)) (found : List Item)
    (done : items.mapM (fun item => item) = some found) : items = found.map some := by
  induction items generalizing found with
  | nil =>
    cases done
    rfl
  | cons item rest ih =>
    rw [mapM_cons] at done
    cases item with
    | none => cases done
    | some val =>
      cases later : rest.mapM (fun item => item) with
      | none => rw [later] at done; cases done
      | some values =>
        rw [later] at done
        cases done
        rw [ih values later]
        rfl

section
variable {sequence : Sequence n} {rows : List (List (Slot n))} {row : List (Slot n)}
  (filled : Filled sequence (rows ++ [row]) [])

include filled

theorem last_row {lasts : List (Fin n)} (read : Manager.lastBlocks sequence = some lasts) : row = lasts.map Slot.block := by
  have width := filled.wide row (by simp)
  have listed := mapM_some _ lasts read
  rw [filled.columns, map_map] at listed
  have cols : (range sequence.beamWidth).map (fun beam => cell beam row) = lasts.map some := by
    rw [← listed]
    simp
  apply ext_getElem?
  intro beam
  have at_beam := congrArg (fun items => items[beam]?) cols
  simp only [getElem?_map] at at_beam
  by_cases inside : beam < sequence.beamWidth
  · have in_row : beam < row.length := by omega
    rw [getElem?_range inside] at at_beam
    rw [getElem?_map, getElem?_eq_getElem in_row]
    cases given : lasts[beam]? with
    | none => rw [given] at at_beam; cases at_beam
    | some last =>
      rw [given] at at_beam
      simp only [Option.map_some, Option.some.injEq, cell, getElem?_eq_getElem in_row, Option.bind_some] at at_beam
      cases slot : row[beam] with
      | sentinel refCount => rw [slot] at at_beam; cases at_beam
      | block id =>
        rw [slot] at at_beam
        cases at_beam
        rfl
  · have out_row : row.length ≤ beam := by omega
    have lengths := congrArg length cols
    rw [length_map, length_range, length_map] at lengths
    rw [getElem?_eq_none out_row, getElem?_eq_none (by rw [length_map]; omega)]

theorem filled_pop (pos : 0 < sequence.beamWidth) : Filled (Manager.popLastBlocks sequence) rows [] where
  flat := by
    have wide : ∀ other ∈ rows, other.length = sequence.beamWidth := fun other mem => filled.wide other (by simp [mem])
    have first : (sequence.cacheBlockIds.headD []).length = rows.length + 1 := by
      rw [filled.columns]
      cases width : sequence.beamWidth with
      | zero => omega
      | succ less => simp [range_succ_eq_map]
    simp only [Manager.popLastBlocks]
    rw [first, filled.flat, Nat.add_sub_cancel, append_nil, flatten_append, ← flatten_length rows wide, take_left, append_nil]
  wide := fun other mem => filled.wide other (by simp [mem])
  columns := by
    simp only [Manager.popLastBlocks]
    rw [filled.columns, map_map]
    simp

end

end LastRow

namespace Manager
variable {config : WindowConfig} {start : Fin n → KVCacheIndex}

section Placeholder
variable (placeholder : Fin n) (requestId : Nat)

theorem swap_in_spec (lasts : List (Fin n)) : ∀ {m next : Manager n} {pending : Fin n → Prop} {part : List (Slot n)}
    {width : Nat}, Sound config start m pending → pending placeholder → Growing config m requestId width part →
    part.length + lasts.length = width →
    swapInPlaceholder placeholder requestId ((range' part.length lasts.length).zip lasts) m = some next →
    Sound config start next (fun id => pending id ∨ id ∈ lasts) ∧
      Growing config next requestId width (part ++ replicate lasts.length (.block placeholder)) ∧
      (∀ id, next.refs id + m.listed id + lasts.count id = m.refs id + next.listed id) ∧
      (∀ other, (next.getSequence other).isSome = (m.getSequence other).isSome) ∧
      (∀ id, (next.block id).isPlaceholder = (m.block id).isPlaceholder) ∧
      ((m.block placeholder).isPlaceholder = true → next.refs placeholder = m.refs placeholder + lasts.length) := by
  induction lasts with
  | nil =>
    intro m next pending part width sound _ growing _ done
    cases done
    exact ⟨sound.repend fun id => by simp, by simpa using growing, fun id => by simp, fun _ => rfl, fun _ => rfl, fun _ => rfl⟩
  | cons last rest ih =>
    intro m next pending part width sound waiting growing total done
    rw [length_cons, range'_succ, zip_cons_cons] at done
    unfold swapInPlaceholder at done
    by_cases kind : (m.block last).isPlaceholder = true
    · rw [if_pos kind] at done
      cases done
    rw [if_neg kind] at done
    dsimp only at done
    obtain ⟨keyed, first⟩ := sound.set_key placeholder (m.block last).blockKey (m.block last).isFull
    obtain ⟨both, second⟩ := keyed.set_key last (m.block placeholder).blockKey (m.block last).isFull
    have steady := first.trans second
    have grown := (growing.same_sequences steady.sequences).add (.block placeholder)
    have added := both.add_block (.block placeholder) requestId part.length fun id same => by
      cases same
      exact .inr waiting
    have balanced := steady.balanced.trans (add_balanced (.block placeholder) requestId _ part.length
      (growing.same_sequences steady.sequences).present)
    have once := add_refs (.block placeholder) requestId ((m.setBlockKey placeholder (m.block last).blockKey
      (m.block last).isFull).setBlockKey last (m.block placeholder).blockKey (m.block last).isFull) part.length placeholder
    rw [if_pos rfl, steady.refs] at once
    generalize ((m.setBlockKey placeholder (m.block last).blockKey (m.block last).isFull).setBlockKey last
      (m.block placeholder).blockKey (m.block last).isFull).addBlockToBeam (.block placeholder) requestId part.length =
      mid at done grown added balanced once
    split at done
    · cases done
    next swapped dropped =>
    have counts := fun id => Sound.dec_refs id dropped
    have loose := added.dec_ref last swapped dropped
    obtain ⟨_, frame⟩ := Sound.dec_cases dropped
    have seqs : swapped.sequences = mid.sequences := by rw [frame]; rfl
    have kinds : ∀ id, (swapped.block id).isPlaceholder = (m.block id).isPlaceholder := by
      intro id
      rw [← balanced.placeholder id, frame]
      exact Sound.modify_keeps rfl id
    obtain ⟨kept, rows, moved, present, later, uses⟩ := ih loose (.inl waiting) (grown.same_sequences seqs)
      (by rw [length_append, length_singleton]; rw [length_cons] at total; omega)
      (by rw [length_append, length_singleton]; exact done)
    refine ⟨kept.repend fun id => ?_, ?_, fun id => ?_, fun other => ?_, fun id => (later id).trans (kinds id), fun own => ?_⟩
    · rw [mem_cons, or_assoc]
    · rw [append_assoc] at rows
      exact rows
    · have one := balanced.refs id
      have two := counts id
      have three := moved id
      rw [listed_same seqs] at three
      rw [count_cons]
      by_cases same : id = last
      · simp only [same, beq_self_eq_true, if_true] at one two three ⊢
        omega
      · have unlike : (last == id) = false := by simpa using fun equal : last = id => same equal.symm
        rw [if_neg same] at two
        simp only [unlike, Bool.false_eq_true, if_false]
        omega
    · rw [present, getSequence, seqs]
      exact balanced.present other
    · have apart : ¬placeholder = last := fun same => kind (same ▸ own)
      have two := counts placeholder
      rw [if_neg apart, once] at two
      rw [uses ((kinds placeholder).trans own), length_cons]
      omega

theorem restore_spec (beamWidthChanged : Bool) (prio : RetentionPriority) (durationMs : Option Nat)
    (lasts : List (Fin n)) : ∀ {m next : Manager n} {pending : Fin n → Prop} {part : List (Slot n)} {width : Nat},
    Sound config start m pending → (∀ id ∈ lasts, pending id) → Growing config m requestId width part →
    part.length + lasts.length = width →
    restoreLast config requestId beamWidthChanged prio durationMs ((range' part.length lasts.length).zip lasts) m =
      some next → Sound config start next pending ∧ (∃ full, full.length = width ∧ Growing config next requestId width full) ∧
      Balanced m next ∧ (∀ id, m.refs id ≤ next.refs id) ∧
      (∀ beam last, (beam, last) ∈ (range' part.length lasts.length).zip lasts →
        beamWidthChanged = false ∨ beam = 0 → 0 < next.refs last) := by
  induction lasts with
  | nil =>
    intro m next pending part width sound _ growing total done
    cases done
    exact ⟨sound, ⟨part, by simpa using total, growing⟩, Balanced.refl _, fun _ => le_rfl, fun _ _ mem => by simp at mem⟩
  | cons last rest ih =>
    intro m next pending part width sound waiting growing total done
    rw [length_cons, range'_succ, zip_cons_cons] at done ⊢
    unfold restoreLast at done
    have shorter : ∀ slot : Slot n, (part ++ [slot]).length + rest.length = width := by
      intro slot
      rw [length_append, length_singleton]
      rw [length_cons] at total
      omega
    have later_waiting := (forall_mem_cons.mp waiting).2
    -- Either branch adds a block to the beam; only the second surely gives the last block its reference back.
    obtain ⟨mid, slot, added, grown, balanced, more, used, done⟩ : ∃ mid slot, Sound config start mid pending ∧
        Growing config mid requestId width (part ++ [slot]) ∧ Balanced m mid ∧ (∀ id, m.refs id ≤ mid.refs id) ∧
        (beamWidthChanged = false ∨ part.length = 0 → 0 < mid.refs last) ∧ restoreLast config requestId
          beamWidthChanged prio durationMs ((range' (part.length + 1) rest.length).zip rest) mid = some next := by
      split at done
      · next parted =>
        split at done
        · cases done
        next fresh acquired got =>
        have given := sound.get_free _ _ _ fresh acquired got
        obtain ⟨settled, grown, balanced⟩ := given.add growing
        refine ⟨_, _, settled, grown, balanced, fun id => ?_, fun mode => ?_, done⟩
        · rw [add_refs, given.steady.refs]
          exact Nat.le_add_right _ _
        · simp only [Bool.and_eq_true, decide_eq_true_eq] at parted
          rcases mode with unchanged | first
          · rw [unchanged] at parted
            cases parted.1
          · omega
      · have added := sound.add_block (.block last) requestId part.length fun id same => by
          cases same
          exact .inr (waiting _ mem_cons_self)
        refine ⟨_, _, added, growing.add (.block last), add_balanced (.block last) requestId m part.length growing.present,
          fun id => ?_, fun _ => add_used requestId m part.length last, done⟩
        rw [add_refs]
        exact Nat.le_add_right _ _
    obtain ⟨kept, full, later, grows, back⟩ := ih added later_waiting grown (shorter slot)
      (by rw [length_append, length_singleton]; exact done)
    rw [length_append, length_singleton] at back
    refine ⟨kept, full, balanced.trans later, fun id => (more id).trans (grows id), fun beam block mem mode => ?_⟩
    rcases mem_cons.mp mem with here | there
    · cases here
      exact lt_of_lt_of_le (used mode) (grows last)
    · exact back beam block there mode

end Placeholder
end Manager

end TrtLlm.Kv
