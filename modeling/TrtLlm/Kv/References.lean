import TrtLlm.Kv.ManagerInvariant
import TrtLlm.Kv.SequenceOps

set_option autoImplicit false

namespace TrtLlm.Kv
open Lib (Table)

namespace Manager
variable {n : Nat} {config : WindowConfig} {start : Fin n → KVCacheIndex} {m : Manager n} {pending : Fin n → Prop}

def listed (m : Manager n) (id : Fin n) : Nat := m.sequences.total fun sequence => sequence.allocated.count (.block id)

structure Balanced (m next : Manager n) : Prop where
  refs : ∀ id, next.refs id + m.listed id = m.refs id + next.listed id
  present : ∀ requestId, (next.getSequence requestId).isSome = (m.getSequence requestId).isSome
  placeholder : ∀ id, (next.block id).isPlaceholder = (m.block id).isPlaceholder

theorem Balanced.refl (m : Manager n) : Balanced m m := ⟨fun _ => rfl, fun _ => rfl, fun _ => rfl⟩

theorem Balanced.trans {first second third : Manager n} (left : Balanced first second) (right : Balanced second third) :
    Balanced first third where
  refs := by
    intro id
    have one := left.refs id
    have two := right.refs id
    omega
  present := fun requestId => (right.present requestId).trans (left.present requestId)
  placeholder := fun id => (right.placeholder id).trans (left.placeholder id)

theorem Steady.balanced {next : Manager n} (steady : Steady m next) : Balanced m next where
  refs := by
    intro id
    rw [steady.refs, listed, listed, steady.sequences]
  present := by
    intro requestId
    rw [getSequence, getSequence, steady.sequences]
  placeholder := steady.placeholder

section Sequences
variable (m) (requestId : Nat) (change : Sequence n → Sequence n)

theorem found_modify (other : Nat) : (m.modifySequence requestId change).getSequence other =
    if other = requestId then (m.getSequence requestId).map change else m.getSequence other :=
  Table.find_update change other

theorem present_modify (other : Nat) :
    ((m.modifySequence requestId change).getSequence other).isSome = (m.getSequence other).isSome := by
  rw [found_modify]
  by_cases same : other = requestId <;> simp [same]

theorem listed_modify (id : Fin n) {seq : Sequence n} (found : m.getSequence requestId = some seq) :
    (m.modifySequence requestId change).listed id + seq.allocated.count (.block id) =
      m.listed id + (change seq).allocated.count (.block id) :=
  Table.total_update (fun seq => seq.allocated.count (Slot.block id)) change seq
    found

variable {m requestId}

theorem found_same {next : Manager n} {sequence : Sequence n} (same : next.sequences = m.sequences)
    (found : m.getSequence requestId = some sequence) : next.getSequence requestId = some sequence := by
  rw [getSequence, same]
  exact found

theorem listed_same {next : Manager n} (same : next.sequences = m.sequences) (id : Fin n) : next.listed id = m.listed id := by
  rw [listed, same, listed]

theorem Sound.with_sequences (sound : Sound config start m pending) (sequences : Table Nat (Sequence n)) :
    Sound config start { m with sequences := sequences } pending :=
  ⟨sound.books, sound.ordered, sound.linked, sound.stored, sound.indices⟩

end Sequences

section AddBlocks
variable (slot : Slot n) (requestId : Nat)

section
variable (m : Manager n) (beamIdx : Nat)

theorem add_refs (id : Fin n) :
    (m.addBlockToBeam slot requestId beamIdx).refs id = m.refs id + (if slot = .block id then 1 else 0) := by
  cases slot with
  | sentinel refCount => rfl
  | block own =>
    have counted := @Sound.inc_refs _ m own id
    refine Eq.trans counted ?_
    by_cases same : id = own
    · simp [same]
    · have apart : ¬own = id := fun equal => same equal.symm
      simp [same, apart]

theorem add_used (id : Fin n) : 0 < (m.addBlockToBeam (.block id) requestId beamIdx).refs id := by
  rw [add_refs, if_pos rfl]
  exact Nat.succ_pos _

theorem add_sequences : (m.addBlockToBeam slot requestId beamIdx).sequences = m.sequences.update requestId fun seq =>
      { seq with
        cacheBlockIds := seq.cacheBlockIds.modify beamIdx fun ids => ids ++ [slot.id?]
        allocated := seq.allocated ++ [slot] } := by
  cases slot <;> rfl

end

theorem Sound.add_block (sound : Sound config start m pending) (beamIdx : Nat)
    (out : ∀ id, slot = .block id → 0 < m.refs id ∨ pending id) :
    Sound config start (m.addBlockToBeam slot requestId beamIdx) pending := by
  cases slot with
  | sentinel refCount => exact sound.with_sequences _
  | block own => exact (sound.inc_ref own (out own rfl)).with_sequences _

theorem add_balanced (m : Manager n) (beamIdx : Nat) (known : (m.getSequence requestId).isSome = true) :
    Balanced m (m.addBlockToBeam slot requestId beamIdx) where
  refs := by
    intro id
    obtain ⟨seq, found⟩ := Option.isSome_iff_exists.mp known
    have total := Table.total_update (fun seq => seq.allocated.count (.block id))
      (fun seq =>
        { seq with
          cacheBlockIds := seq.cacheBlockIds.modify beamIdx fun ids => ids ++ [slot.id?]
          allocated := seq.allocated ++ [slot] }) seq found
    have added : (seq.allocated ++ [slot]).count (.block id) =
        seq.allocated.count (.block id) + (if slot = .block id then 1 else 0) := by
      rw [List.count_append, List.count_singleton]
      simp
    rw [added] at total
    rw [add_refs, listed, listed, add_sequences]
    omega
  present := by
    intro other
    rw [getSequence, add_sequences]
    exact present_modify m requestId _ other
  placeholder id := by
    cases slot with
    | sentinel refCount => rfl
    | block own =>
      by_cases same : id = own <;> simp [addBlockToBeam, modifySequence, incRefCount, modifyBlock, block, same]

theorem Sound.add_beams (beams : List Nat) (sound : Sound config start m pending)
    (out : ∀ id, slot = .block id → 0 < m.refs id ∨ pending id) (known : (m.getSequence requestId).isSome = true) :
    let next := addBlockToBeams slot requestId beams m
    Sound config start next pending ∧ Balanced m next ∧
      ∀ id, next.refs id = m.refs id + (if slot = .block id then beams.length else 0) := by
  induction beams generalizing m with
  | nil => exact ⟨sound, Balanced.refl m, fun id => by simp [addBlockToBeams]⟩
  | cons beamIdx rest ih =>
    have added := sound.add_block slot requestId beamIdx out
    have balanced := add_balanced slot requestId m beamIdx known
    have counts := add_refs slot requestId m beamIdx
    obtain ⟨kept, later, finals⟩ := ih added
      (fun id same => by
        left
        rw [counts id, if_pos same]
        exact Nat.succ_pos _)
      (by rw [balanced.present]; exact known)
    refine ⟨kept, balanced.trans later, fun id => ?_⟩
    rw [addBlockToBeams, finals id, counts id]
    by_cases same : slot = .block id
    · rw [if_pos same, if_pos same, if_pos same, List.length_cons]
      omega
    · rw [if_neg same, if_neg same, if_neg same]

theorem Sound.add_all (beamWidth : Nat) (sound : Sound config start m pending)
    (out : ∀ id, slot = .block id → 0 < m.refs id ∨ pending id) (known : (m.getSequence requestId).isSome = true) :
    let next := m.addBlockToAllBeams slot requestId beamWidth
    Sound config start next pending ∧ Balanced m next ∧
      ∀ id, next.refs id = m.refs id + (if slot = .block id then beamWidth else 0) := by
  obtain ⟨kept, balanced, counts⟩ := sound.add_beams slot requestId (List.range beamWidth) out known
  rw [List.length_range] at counts
  exact ⟨kept, balanced, counts⟩

end AddBlocks

section Drops

structure Drops (m next : Manager n) (slots : List (Slot n)) : Prop where
  refs : ∀ id, next.refs id + slots.count (.block id) = m.refs id
  sequences : next.sequences = m.sequences
  placeholder : ∀ id, (next.block id).isPlaceholder = (m.block id).isPlaceholder

theorem Drops.nil (m : Manager n) : Drops m m [] := ⟨fun _ => rfl, rfl, fun _ => rfl⟩

theorem Drops.cons {second third : Manager n} {slot : Slot n} {rest : List (Slot n)} (one : Drops m second [slot])
    (more : Drops second third rest) : Drops m third (slot :: rest) where
  refs := by
    intro id
    have first := one.refs id
    have later := more.refs id
    rw [List.count_cons] at first ⊢
    rw [List.count_nil] at first
    omega
  sequences := more.sequences.trans one.sequences
  placeholder := fun id => (more.placeholder id).trans (one.placeholder id)

theorem Sound.drop_block (sound : Sound config start m pending) {id : Fin n} (toFront : Bool) {next : Manager n}
    (settled : ¬pending id) (done : m.decRefCount id = some next) :
    Sound config start (next.releaseIfFree id toFront) pending ∧ Drops m (next.releaseIfFree id toFront) [.block id] := by
  have counts := fun other => Sound.dec_refs other done
  obtain ⟨kept, steady⟩ := Sound.release_if_free id toFront (sound.dec_ref id next done) settled
  refine ⟨kept, ?_⟩
  obtain ⟨_, rfl⟩ := Sound.dec_cases done
  refine ⟨fun other => ?_, steady.sequences, fun other => (steady.placeholder other).trans ?_⟩
  · have count := counts other
    rw [steady.refs, ← count, List.count_singleton]
    simp [@eq_comm _ other]
  · exact Sound.modify_keeps rfl other

section
variable (sound : Sound config start m pending) (settled : ∀ id, ¬pending id)

include sound settled

theorem Sound.drop_slot {slot : Slot n} {toFront : Bool} {next : Manager n} (done : m.dropSlot slot toFront = some next) :
    Sound config start next pending ∧ Drops m next [slot] := by
  unfold dropSlot at done
  cases slot with
  | sentinel refCount =>
    cases refCount with
    | zero => cases done
    | succ count =>
      cases done
      exact ⟨sound, fun _ => rfl, rfl, fun _ => rfl⟩
  | block id =>
    dsimp only at done
    split at done
    · cases done
    · next released dropped =>
      cases done
      exact sound.drop_block toFront (settled id) dropped

theorem Sound.drop_slots (slots : List (Slot n)) (next : Manager n) (done : dropSlots slots m = some next) :
    Sound config start next pending ∧ Drops m next slots := by
  induction slots generalizing m with
  | nil =>
    cases done
    exact ⟨sound, Drops.nil _⟩
  | cons slot rest ih =>
    unfold dropSlots at done
    split at done
    · cases done
    next dropped one =>
    obtain ⟨kept, first⟩ := sound.drop_slot settled one
    obtain ⟨last, more⟩ := ih kept done
    exact ⟨last, first.cons more⟩

-- releaseBlocks skips a block without references; that branch is dead while every slot is counted.
theorem Sound.release_slots (slots : List (Slot n)) (counted : ∀ id, slots.count (.block id) ≤ m.refs id) :
    Sound config start (releaseSlots slots m) pending ∧ Drops m (releaseSlots slots m) slots := by
  induction slots generalizing m with
  | nil => exact ⟨sound, Drops.nil m⟩
  | cons slot rest ih =>
    cases slot with
    | sentinel refCount =>
      obtain ⟨kept, more⟩ := ih sound fun id => by simpa using counted id
      exact ⟨kept, Drops.cons (⟨fun _ => rfl, rfl, fun _ => rfl⟩ : Drops m m [.sentinel refCount]) more⟩
    | block id =>
      have used : 0 < m.refs id := by
        have count := counted id
        rw [List.count_cons_self] at count
        omega
      obtain ⟨dropped, done⟩ : ∃ dropped, m.decRefCount id = some dropped := by
        have has : (m.block id).hasRefs = true := by simpa [Block.hasRefs, refs] using used
        exact ⟨_, by rw [decRefCount, if_pos has]⟩
      obtain ⟨kept, first⟩ := sound.drop_block (dropped.block id).isDetached (settled id) done
      have left : ∀ other, rest.count (.block other) ≤
          (dropped.releaseIfFree id (dropped.block id).isDetached).refs other := by
        intro other
        have count := counted other
        have one := first.refs other
        rw [List.count_cons] at count one
        rw [List.count_nil] at one
        omega
      obtain ⟨last, more⟩ := ih kept left
      unfold releaseSlots
      rw [done]
      exact ⟨last, first.cons more⟩

end

end Drops
end Manager
end TrtLlm.Kv
