import TrtLlm.Adp.Targets

set_option autoImplicit false

namespace TrtLlm.Adp
open List Lib Assignment Lib.Table

theorem room_filter {α : Type} (bound : Nat) (held : α → Nat) (entries : List α) :
    ((entries.filter fun entry => decide (held entry < bound)).map fun entry => bound - held entry).sum =
      (entries.map fun entry => bound - held entry).sum := by
  induction entries with
  | nil => rfl
  | cons entry rest ih =>
    by_cases below : held entry < bound
    · simp [below, ih]
    · have spent : bound - held entry = 0 := by omega
      simp [below, ih, spent]

theorem share_covers {counts : List Nat} {numNew share cap : Nat} (nonempty : counts ≠ [])
    (fair : (counts.sum + numNew + counts.length - 1) / counts.length ≤ share)
    (fits : counts.sum + numNew ≤ counts.length * cap) : counts.sum + numNew ≤ counts.length * min share cap := by
  have pos : 0 < counts.length := length_pos_iff.mpr nonempty
  rcases Nat.le_total share cap with small | large
  · rw [min_eq_left small]
    have rounded := Nat.div_add_mod (counts.sum + numNew + counts.length - 1) counts.length
    have rest := Nat.mod_lt (counts.sum + numNew + counts.length - 1) pos
    have scaled := Nat.mul_le_mul_left counts.length fair
    omega
  · rw [min_eq_right large]
    exact fits

namespace DefaultADPRouter

theorem splitLeast_perm (rest : List HeapVal) :
    ∀ least, ((splitLeast least rest).1 :: (splitLeast least rest).2).Perm (least :: rest) := by
  induction rest with
  | nil => exact fun least => Perm.refl _
  | cons val rest ih =>
    intro least
    rw [splitLeast]
    split_ifs with smaller
    · exact (Perm.swap _ _ _).trans ((ih val).cons least)
    · exact (Perm.swap _ _ _).trans (((ih least).cons val).trans (Perm.swap _ _ _))

def heapRoom (expected : Nat) (heap : List HeapVal) : Nat := (heap.map fun val => expected - val.numRequests).sum

structure HeapFits (expected : Nat) (base : Nat → Nat) (heap : List HeapVal) (scheduled : Assignment) : Prop where
  below : ∀ val ∈ heap, val.numRequests < expected
  key : ∀ val ∈ heap, (val.rank : Int) ∈ scheduled.map Prod.fst
  counted : ∀ val ∈ heap, val.numRequests = base val.rank + (scheduled.ofRank val.rank).length
  distinct : (heap.map (·.rank)).Nodup
  capped : ∀ place : Nat, base place + (scheduled.ofRank place).length ≤ max (base place) expected

variable {expected : Nat} {base : Nat → Nat} {heap : List HeapVal} {scheduled : Assignment}

theorem HeapFits.perm {other : List HeapVal} (fits : HeapFits expected base heap scheduled) (same : other.Perm heap) :
    HeapFits expected base other scheduled :=
  ⟨fun val mem => fits.below val (same.mem_iff.mp mem), fun val mem => fits.key val (same.mem_iff.mp mem),
    fun val mem => fits.counted val (same.mem_iff.mp mem), ((same.map _).nodup_iff).mpr fits.distinct, fits.capped⟩

theorem HeapFits.take {val : HeapVal} {others : List HeapVal} (fits : HeapFits expected base (val :: others) scheduled)
    (item : RequestQueueItem) : let taken : HeapVal := ⟨val.numTokens + item.tokens.length, val.numRequests + 1, val.rank⟩
    HeapFits expected base (if taken.numRequests < expected then taken :: others else others)
      (update (val.rank : Int) (· ++ [item]) scheduled) := by
  intro taken
  have nodup := fits.distinct
  rw [map_cons, nodup_cons] at nodup
  have key := fits.key val mem_cons_self
  have counted := fits.counted val mem_cons_self
  have below := fits.below val mem_cons_self
  have keys : (update (val.rank : Int) (· ++ [item]) scheduled).map Prod.fst = scheduled.map Prod.fst := keys_update _
  have here : (ofRank (update (val.rank : Int) (· ++ [item]) scheduled) val.rank).length =
      (scheduled.ofRank val.rank).length + 1 := by
    rw [update_ofRank _ _ [item] key, if_pos rfl, length_append, length_singleton]
  have apart : ∀ place : Nat, place ≠ val.rank →
      ofRank (update (val.rank : Int) (· ++ [item]) scheduled) place = scheduled.ofRank place := by
    intro place ne
    have unequal : ¬(place : Int) = val.rank := fun equal => ne (Int.ofNat.inj equal)
    rw [update_ofRank _ _ [item] key, if_neg unequal]
  have elsewhere : ∀ other ∈ others, other.rank ≠ val.rank := fun other mem same => nodup.1 (same ▸ mem_map_of_mem mem)
  have rest : HeapFits expected base others (update (val.rank : Int) (· ++ [item]) scheduled) := by
    constructor
    · exact (forall_mem_cons.mp fits.below).2
    · intro other mem
      rw [keys]
      exact fits.key other (mem_cons_of_mem _ mem)
    · intro other mem
      rw [apart other.rank (elsewhere other mem)]
      exact fits.counted other (mem_cons_of_mem _ mem)
    · exact nodup.2
    · intro place
      by_cases same : place = val.rank
      · rw [same, here]
        omega
      · rw [apart place same]
        exact fits.capped place
  split
  · next stays =>
    constructor
    · exact forall_mem_cons.mpr ⟨stays, rest.below⟩
    · refine forall_mem_cons.mpr ⟨?_, rest.key⟩
      rw [keys]
      exact key
    · refine forall_mem_cons.mpr ⟨?_, rest.counted⟩
      change val.numRequests + 1 = base val.rank + _
      rw [here]
      omega
    · rw [map_cons, nodup_cons]
      exact nodup
    · exact rest.capped
  · exact rest

theorem balance_loop_places (items : List RequestQueueItem) : ∀ (heap : List HeapVal) (scheduled : Assignment),
    HeapFits expected base heap scheduled → items.length ≤ heapRoom expected heap →
    ∃ final, balanceLoop expected items heap scheduled = .ok final ∧ (final.requests).Perm (scheduled.requests ++ items) ∧
      final.map Prod.fst = scheduled.map Prod.fst ∧
      ∀ place : Nat, base place + (final.ofRank place).length ≤ max (base place) expected := by
  induction items with
  | nil => exact fun heap scheduled fits _ => ⟨scheduled, by rw [balanceLoop], by simp, rfl, fits.capped⟩
  | cons item rest ih =>
    intro heap scheduled fits room
    cases heap with
    | nil => simp [heapRoom] at room
    | cons first others =>
      have same := splitLeast_perm others first
      have popped := fits.perm same
      have key := popped.key _ mem_cons_self
      have held : heapRoom expected (first :: others) =
          (expected - (splitLeast first others).1.numRequests) + heapRoom expected (splitLeast first others).2 := by
        have sums := (same.map fun val : HeapVal => expected - val.numRequests).sum_nat
        exact sums.symm
      rw [held, length_cons] at room
      obtain ⟨final, ran, reqs, keys, capped⟩ := ih _ _ (popped.take item) (by
        split_ifs with stays
        · simp only [heapRoom, map_cons, sum_cons] at room ⊢
          omega
        · simp only [not_lt] at stays
          omega)
      refine ⟨final, by rw [balanceLoop]; exact ran, ?_, ?_, capped⟩
      · refine reqs.trans (((update_requests _ [item] key).append_right rest).trans ?_)
        rw [append_assoc, singleton_append]
      · rw [keys]
        exact keys_update _

theorem extend_all (size : Nat) (entries : Assignment) : ∀ assigned : Assignment, assigned.Covers size →
    (∀ entry ∈ entries, InRange size entry.1) → (entries.map Prod.fst).Nodup →
    ∃ final, extendAll entries assigned = .ok final ∧ final.Covers size ∧
      (final.requests).Perm (assigned.requests ++ entries.requests) ∧
      ∀ rank, final.ofRank rank = assigned.ofRank rank ++ entries.ofRank rank := by
  induction entries with
  | nil =>
    exact fun assigned covers _ _ =>
      ⟨assigned, rfl, covers, by simp [Assignment.requests], fun rank => by simp [ofRank, find]⟩
  | cons entry rest ih =>
    intro assigned covers within nodup
    obtain ⟨rank, items⟩ := entry
    have reach := within (rank, items) mem_cons_self
    have key := (covers.mem_keys rank).mpr reach
    rw [map_cons, nodup_cons] at nodup
    obtain ⟨final, ran, kept, reqs, lists⟩ := ih _ (update_covers covers rank items)
      (forall_mem_cons.mp within).2 nodup.2
    refine ⟨final, by rw [extendAll, extend_of_key rank items key]; exact ran, kept, ?_, ?_⟩
    · refine reqs.trans (((update_requests rank items key).append_right _).trans ?_)
      simp [Assignment.requests]
    intro other
    rw [lists other, update_ofRank rank other items key]
    by_cases same : other = rank
    · have absent : ofRank rest other = [] := by
        rw [ofRank, find_none (same ▸ nodup.1)]
        rfl
      rw [if_pos same, absent, append_nil, same]
      simp [ofRank, find]
    · have skipped : ofRank ((rank, items) :: rest) other = ofRank rest other := by
        rw [ofRank, find_cons, if_neg fun equal => same (Eq.symm equal), ofRank]
      rw [if_neg same, skipped]

section
variable {numActive numTokens : List Nat}

theorem heapOf_columns (sizes : numTokens.length = numActive.length) :
    (heapOf numActive numTokens).map (·.numRequests) = numActive ∧
      (heapOf numActive numTokens).map (·.rank) = range numActive.length := by
  constructor <;> apply ext_getElem <;> simp [heapOf, sizes]

theorem heapOf_mem (val : HeapVal) (mem : val ∈ heapOf numActive numTokens) :
    val.numRequests = numActive.getD val.rank 0 ∧ val.rank < numActive.length := by
  rw [heapOf, mem_mapIdx] at mem
  obtain ⟨place, inside, rfl⟩ := mem
  have below : place < numActive.length := by
    rw [length_zip] at inside
    omega
  exact ⟨by simp [below], below⟩

theorem heap_fits_start (sizes : numTokens.length = numActive.length) (expected : Nat) :
    HeapFits expected (fun place => numActive.getD place 0)
      ((heapOf numActive numTokens).filter fun val => val.numRequests < expected)
      (((heapOf numActive numTokens).filter fun val => val.numRequests < expected).map fun val => ((val.rank : Int), [])) := by
  have empty : ∀ rank : Int, ofRank
      (((heapOf numActive numTokens).filter fun val => val.numRequests < expected).map fun val => ((val.rank : Int), [])) rank = [] := by
    intro rank
    rw [ofRank]
    cases found : find rank _ with
    | none => rfl
    | some list =>
      have mem := mem_of_find list found
      simp only [mem_map, Prod.mk.injEq] at mem
      obtain ⟨_, _, _, nothing⟩ := mem
      exact nothing.symm
  constructor
  · intro val mem
    simpa using (mem_filter.mp mem).2
  · intro val mem
    rw [map_map]
    exact mem_map.mpr ⟨val, mem, rfl⟩
  · intro val mem
    rw [empty, (heapOf_mem val (mem_filter.mp mem).1).1]
    rfl
  · have all : ((heapOf numActive numTokens).map (·.rank)).Nodup := by
      rw [(heapOf_columns sizes).2]
      exact nodup_range
    exact all.sublist (filter_sublist.map _)
  · intro place
    rw [empty]
    exact le_max_left _ _

end

structure Balanced (size expected : Nat) (numActive : List Nat) (assigned : Assignment) (newRequests : List RequestQueueItem)
    (final : Assignment) : Prop where
  covers : final.Covers size
  requests : (final.requests).Perm (assigned.requests ++ newRequests)
  capped : ∀ place : Nat, numActive.getD place 0 + (final.ofRank place).length ≤
    max (numActive.getD place 0) expected + (assigned.ofRank place).length

theorem balance_across (newRequests : List RequestQueueItem) (assigned : Assignment) (numActive numTokens : List Nat)
    (expected : Nat) (covers : assigned.Covers numActive.length) (sizes : numTokens.length = numActive.length)
    (room : newRequests ≠ [] → numActive.sum + newRequests.length ≤ numActive.length * expected) :
    ∃ final, balanceRequestsAcrossRanks newRequests assigned numActive numTokens expected = .ok final ∧
      Balanced numActive.length expected numActive assigned newRequests final := by
  rw [balanceRequestsAcrossRanks]
  split_ifs with none_new
  · refine ⟨assigned, rfl, covers, by simp [none_new], fun place => ?_⟩
    omega
  have fits := heap_fits_start sizes expected
  have sorted : (longestFirst newRequests).Perm newRequests := perm_insertionSort _ _
  have space : (longestFirst newRequests).length ≤
      heapRoom expected ((heapOf numActive numTokens).filter fun val => val.numRequests < expected) := by
    rw [heapRoom, room_filter expected (fun val : HeapVal => val.numRequests), sorted.length_eq]
    have counts := room_of_sum numActive (room none_new)
    have listed := congrArg (map (expected - ·)) (heapOf_columns sizes).1
    rw [map_map] at listed
    rw [← listed] at counts
    exact counts
  obtain ⟨scheduled, ran, reqs, keys, capped⟩ := balance_loop_places (longestFirst newRequests) _ _ fits space
  rw [map_map] at keys
  have within : ∀ entry ∈ scheduled, InRange numActive.length entry.1 := by
    intro entry mem
    have key : entry.1 ∈ scheduled.map Prod.fst := mem_map_of_mem mem
    rw [keys, mem_map] at key
    obtain ⟨val, listed, same⟩ := key
    have below := (heapOf_mem val (mem_filter.mp listed).1).2
    rw [← same]
    exact ⟨Int.natCast_nonneg _, Int.ofNat_lt.mpr below⟩
  have nodup : (scheduled.map Prod.fst).Nodup := by
    rw [keys]
    have ranks := fits.distinct.map (f := Int.ofNat) fun left right same => Int.ofNat.inj same
    rw [map_map] at ranks
    exact ranks
  obtain ⟨final, extended, kept, gathered, lists⟩ := extend_all numActive.length scheduled assigned covers within nodup
  refine ⟨final, ?_, kept, ?_, ?_⟩
  · simp only [ran, Except.bind]
    exact extended
  · refine gathered.trans (Perm.append_left _ (reqs.trans ?_))
    have empty : Assignment.requests
        (((heapOf numActive numTokens).filter fun val => val.numRequests < expected).map fun val => ((val.rank : Int), [])) = [] := by
      simp [Assignment.requests, flatMap_map]
    rw [empty, nil_append]
    exact sorted
  · intro place
    have bounded := capped place
    rw [lists, length_append]
    omega

end DefaultADPRouter
end TrtLlm.Adp
