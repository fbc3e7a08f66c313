import Mathlib

set_option autoImplicit false

namespace TrtLlm.Moe

structure MoeLoadBalanceMetaInfo where
  expertCount : Nat
  epSize : Nat
  slotCountPerRank : Nat

def MoeLoadBalanceMetaInfo.totalSlotCount (m : MoeLoadBalanceMetaInfo) : Nat := m.epSize * m.slotCountPerRank

variable {n : Nat} (load : Fin n → ℚ)

-- The loop over the priority queue of slot sizes and experts.
def assignSlots : Nat → List (ℚ × Fin n) → (Fin n → Nat) → Fin n → Nat
  | 0, _, replicaCount => replicaCount
  | slots + 1, pq, replicaCount =>
    match pq.argmax toLex with
    | none => replicaCount
    | some top =>
      let replicaCount := Function.update replicaCount top.2 (replicaCount top.2 + 1)
      assignSlots slots ((load top.2 / replicaCount top.2, top.2) :: pq.erase top) replicaCount

def doReplication (metaInfo : MoeLoadBalanceMetaInfo) (expertLoadFactor : Fin metaInfo.expertCount → ℚ) :
    Fin metaInfo.expertCount → Nat :=
  if metaInfo.totalSlotCount = metaInfo.expertCount then fun _ => 1
  else if ∑ i, expertLoadFactor i = 0 then fun i =>
    metaInfo.totalSlotCount / metaInfo.expertCount +
      if i < metaInfo.totalSlotCount % metaInfo.expertCount then 1 else 0
  else assignSlots expertLoadFactor (metaInfo.totalSlotCount - metaInfo.expertCount)
    ((List.finRange _).map fun i => (expertLoadFactor i / 1, i)) fun _ => 1

def maxSlotSize (replicaCount : Fin n → Nat) : WithBot ℚ :=
  Finset.univ.sup fun i => ((load i / replicaCount i : ℚ) : WithBot ℚ)

structure Greedy (replicaCount : Fin n → Nat) : Prop where
  positive : ∀ i, 0 < replicaCount i
  earned : ∀ i j, 1 < replicaCount i → load j / replicaCount j ≤ load i / (replicaCount i - 1 : Nat)

structure Queued (pq : List (ℚ × Fin n)) (replicaCount : Fin n → Nat) : Prop where
  nodup : pq.Nodup
  mem : ∀ size i, (size, i) ∈ pq ↔ size = load i / replicaCount i

variable {load}

theorem slot_size_antitone (nonneg : ∀ i, 0 ≤ load i) (i : Fin n) {few many : Nat} (pos : 0 < few)
    (more : few ≤ many) : load i / many ≤ load i / few :=
  div_le_div_of_nonneg_left (nonneg i) (Nat.cast_pos.mpr pos) (Nat.cast_le.mpr more)

section
variable (nonneg : ∀ i, 0 ≤ load i) {replicaCount : Fin n → Nat} (greedy : Greedy load replicaCount)

include nonneg greedy

theorem Greedy.max_le (other : Fin n → Nat) (pos : ∀ i, 0 < other i) (same : ∑ i, other i = ∑ i, replicaCount i) :
    maxSlotSize load replicaCount ≤ maxSlotSize load other := by
  refine Finset.sup_le fun i _ => ?_
  have larger : ∃ j, load i / replicaCount i ≤ load j / other j := by
    by_cases fewer : other i ≤ replicaCount i
    · exact ⟨i, slot_size_antitone nonneg i (pos i) fewer⟩
    -- the replicas the other assignment gives to i are missing at some j
    · obtain ⟨j, -, less⟩ : ∃ j ∈ Finset.univ, other j < replicaCount j := by
        by_contra none
        push Not at none
        have := Finset.sum_lt_sum none ⟨i, Finset.mem_univ i, not_le.mp fewer⟩
        omega
      have given := pos j
      exact ⟨j, (greedy.earned j i (by omega)).trans (slot_size_antitone nonneg j given (by omega))⟩
  obtain ⟨j, le⟩ := larger
  exact (WithBot.coe_le_coe.mpr le).trans (Finset.le_sup (f := fun j => ((load j / other j : ℚ) : WithBot ℚ)) (Finset.mem_univ j))

theorem Greedy.step (expert : Fin n) (largest : ∀ j, load j / replicaCount j ≤ load expert / replicaCount expert) :
    Greedy load (Function.update replicaCount expert (replicaCount expert + 1)) := by
  have smaller : ∀ j, load j / (Function.update replicaCount expert (replicaCount expert + 1) j : Nat) ≤
      load j / replicaCount j := by
    intro j
    refine slot_size_antitone nonneg j (greedy.positive j) ?_
    by_cases same : j = expert
    · simp [same]
    · simp [same]
  constructor
  · intro i
    by_cases same : i = expert
    · simp [same]
    · simpa [same] using greedy.positive i
  · intro i j several
    refine (smaller j).trans ?_
    by_cases same : i = expert
    · simpa [same] using largest j
    · rw [Function.update_of_ne same] at several ⊢
      exact greedy.earned i j several

end

theorem Queued.step {pq : List (ℚ × Fin n)} {replicaCount : Fin n → Nat} (queued : Queued load pq replicaCount)
    (expert : Fin n) : Queued load
      ((load expert / (replicaCount expert + 1 : Nat), expert) :: pq.erase (load expert / replicaCount expert, expert))
      (Function.update replicaCount expert (replicaCount expert + 1)) where
  nodup := by
    refine List.nodup_cons.mpr ⟨fun again => ?_, queued.nodup.erase _⟩
    obtain ⟨moved, there⟩ := queued.nodup.mem_erase_iff.mp again
    exact moved (by rw [(queued.mem _ _).mp there])
  mem size i := by
    rw [List.mem_cons, queued.nodup.mem_erase_iff, queued.mem]
    by_cases same : i = expert
    · subst same
      simp
    · simp [same]

theorem assign_slots_greedy (nonneg : ∀ i, 0 ≤ load i) (first : Fin n) (slots : Nat) (pq : List (ℚ × Fin n))
    (replicaCount : Fin n → Nat) (queued : Queued load pq replicaCount) (greedy : Greedy load replicaCount) :
    Greedy load (assignSlots load slots pq replicaCount) ∧
      ∑ i, assignSlots load slots pq replicaCount i = ∑ i, replicaCount i + slots := by
  induction slots generalizing pq replicaCount with
  | zero => exact ⟨greedy, rfl⟩
  | succ slots ih =>
    rw [assignSlots]
    cases chosen : pq.argmax toLex with
    | none =>
      have there := (queued.mem _ first).mpr rfl
      simp [List.argmax_eq_none.mp chosen] at there
    | some top =>
      obtain ⟨size, expert⟩ := top
      obtain rfl := (queued.mem _ _).mp (List.argmax_mem chosen)
      have largest : ∀ j, load j / replicaCount j ≤ load expert / replicaCount expert := by
        intro j
        have := List.le_of_mem_argmax ((queued.mem _ j).mpr rfl) chosen
        exact (Prod.Lex.le_iff.mp this).elim le_of_lt fun tie => tie.1.le
      simp only [Function.update_self]
      have step := ih _ _ (queued.step expert) (greedy.step nonneg expert largest)
      refine ⟨step.1, step.2.trans ?_⟩
      rw [Finset.sum_update_of_mem (Finset.mem_univ expert), ← Finset.erase_eq, ← Finset.add_sum_erase _ _ (Finset.mem_univ expert)]
      omega

theorem queued_once (load : Fin n → ℚ) : Queued load ((List.finRange n).map fun i => (load i / 1, i)) fun _ => 1 where
  nodup := (List.nodup_finRange n).map fun i j same => (Prod.mk.inj same).2
  mem size i := by simp [eq_comm]

theorem replication_optimal (metaInfo : MoeLoadBalanceMetaInfo) (expertLoadFactor : Fin metaInfo.expertCount → ℚ)
    (nonneg : ∀ i, 0 ≤ expertLoadFactor i) (loaded : 0 < ∑ i, expertLoadFactor i)
    (enough : metaInfo.expertCount ≤ metaInfo.totalSlotCount) :
    (∀ i, 0 < doReplication metaInfo expertLoadFactor i) ∧
      ∑ i, doReplication metaInfo expertLoadFactor i = metaInfo.totalSlotCount ∧
      ∀ other : Fin metaInfo.expertCount → Nat, (∀ i, 0 < other i) → ∑ i, other i = metaInfo.totalSlotCount →
        maxSlotSize expertLoadFactor (doReplication metaInfo expertLoadFactor) ≤ maxSlotSize expertLoadFactor other := by
  have once : Greedy expertLoadFactor fun _ => 1 := ⟨fun _ => Nat.one_pos, fun i j several => absurd several (by simp)⟩
  obtain ⟨first, -, -⟩ := Finset.exists_ne_zero_of_sum_ne_zero loaded.ne'
  have res : Greedy expertLoadFactor (doReplication metaInfo expertLoadFactor) ∧
      ∑ i, doReplication metaInfo expertLoadFactor i = metaInfo.totalSlotCount := by
    unfold doReplication
    split
    · rename_i all
      exact ⟨once, by simp [all]⟩
    · rw [if_neg loaded.ne']
      have run := assign_slots_greedy nonneg first (metaInfo.totalSlotCount - metaInfo.expertCount) _ _
        (queued_once expertLoadFactor) once
      refine ⟨run.1, run.2.trans ?_⟩
      simp
      omega
  obtain ⟨greedy, total⟩ := res
  exact ⟨greedy.positive, total, fun other pos same => greedy.max_le nonneg other pos (same.trans total.symm)⟩

theorem four_slots_replicated : maxSlotSize ![3, 1] (doReplication ⟨2, 2, 2⟩ ![3, 1]) ≤ maxSlotSize ![3, 1] ![2, 2] :=
  (replication_optimal ⟨2, 2, 2⟩ ![3, 1] (by decide) (by decide +kernel) (by decide)).2.2 ![2, 2]
    (by decide) (by decide)

end TrtLlm.Moe
