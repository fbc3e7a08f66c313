import TrtLlm.Adp.WaitingQueue
import TrtLlm.Lib.Runs

set_option autoImplicit false

namespace TrtLlm.Adp
open List Lib Assignment RequestQueueItem Lib.Table

section Counts
variable (counts : List Nat)

theorem getD_modify_here {place : Nat} (inside : place < counts.length) :
    (counts.modify place (· + 1)).getD place 0 = counts.getD place 0 + 1 := by
  simp [getD_eq_getElem?_getD, inside]

theorem getD_modify_other {place other : Nat} (ne : other ≠ place) :
    (counts.modify place (· + 1)).getD other 0 = counts.getD other 0 := by
  simp [getD_eq_getElem?_getD, ne.symm]

theorem sum_modify (place : Nat) (inside : place < counts.length) : (counts.modify place (· + 1)).sum = counts.sum + 1 := by
  induction counts generalizing place with
  | nil => simp at inside
  | cons count rest ih =>
    cases place with
    | zero =>
      simp
      omega
    | succ place =>
      have later := ih place (by simpa using inside)
      simp [modify_succ_cons, later]
      omega

theorem room_of_sum {bound held : Nat} (fits : counts.sum + held ≤ counts.length * bound) :
    held ≤ (counts.map (bound - ·)).sum := by
  have total : counts.length * bound ≤ counts.sum + (counts.map (bound - ·)).sum := by
    clear fits
    induction counts with
    | nil => simp
    | cons count rest ih =>
      simp only [length_cons, sum_cons, map_cons, Nat.add_mul]
      omega
  omega

end Counts

variable {size : Nat}

theorem pyIndex_rank {size rank : Nat} (inside : rank < size) : pyIndex size (rank : Int) = some rank := by simp [pyIndex, inside]

def ranksOf (size : Nat) : List Int := (List.range size).map Int.ofNat

def InRange (size : Nat) (rank : Int) : Prop := 0 ≤ rank ∧ rank < size

theorem InRange.rank {rank : Int} (within : InRange size rank) : ∃ place : Nat, rank = place ∧ place < size :=
  ⟨rank.toNat, by have := within.1; omega, by have := within.1; have := within.2; omega⟩

namespace Assignment
variable {assigned next : Assignment}

def Covers (assigned : Assignment) (size : Nat) : Prop := assigned.map Prod.fst = ranksOf size

theorem Covers.mem_keys (covers : assigned.Covers size) (rank : Int) : rank ∈ assigned.map Prod.fst ↔ InRange size rank := by
  rw [show assigned.map Prod.fst = _ from covers, ranksOf, mem_map]
  constructor
  · rintro ⟨place, inside, rfl⟩
    exact ⟨Int.natCast_nonneg place, by simpa using inside⟩
  · intro within
    obtain ⟨place, same, below⟩ := within.rank
    exact ⟨place, mem_range.mpr below, same.symm⟩

theorem extend_of_key (rank : Int) (items : List RequestQueueItem) (key : rank ∈ assigned.map Prod.fst) :
    assigned.extend rank items = .ok (update rank (· ++ items) assigned) := by
  cases found : find rank assigned with
  | none => exact absurd key (not_mem_keys found)
  | some list => simp [extend, found]

theorem extend_cases (rank : Int) (items : List RequestQueueItem) (done : assigned.extend rank items = .ok next) :
    rank ∈ assigned.map Prod.fst ∧ next = update rank (· ++ items) assigned := by
  cases found : find rank assigned with
  | none => simp [extend, found] at done
  | some list =>
    rw [extend, found] at done
    exact ⟨mem_keys rank assigned list found, (Except.ok.inj done).symm⟩

theorem update_ofRank (rank other : Int) (items : List RequestQueueItem) (key : rank ∈ assigned.map Prod.fst) :
    ofRank (update rank (· ++ items) assigned) other =
      if other = rank then assigned.ofRank rank ++ items else assigned.ofRank other := by
  rw [ofRank, find_update]
  by_cases same : other = rank
  · rw [if_pos same, if_pos same, ofRank]
    cases found : find rank assigned with
    | none => exact absurd key (not_mem_keys found)
    | some list => rfl
  · rw [if_neg same, if_neg same, ofRank]

theorem update_covers (covers : assigned.Covers size) (rank : Int) (items : List RequestQueueItem) :
    Covers (update rank (· ++ items) assigned) size := by
  rw [Covers, keys_update]
  exact covers

theorem update_requests (rank : Int) (items : List RequestQueueItem) (key : rank ∈ assigned.map Prod.fst) :
    (requests (update rank (· ++ items) assigned)).Perm (assigned.requests ++ items) := by
  induction assigned with
  | nil => simp at key
  | cons entry rest ih =>
    by_cases here : entry.1 = rank
    · rw [update, if_pos here]
      simp only [requests, flatMap_cons, append_assoc]
      exact Perm.append_left _ perm_append_comm
    have later : rank ∈ rest.map Prod.fst := by
      rcases mem_cons.mp key with same | mem
      · exact absurd same.symm here
      · exact mem
    rw [update, if_neg here]
    simp only [requests, flatMap_cons, append_assoc]
    exact Perm.append_left _ (ih later)

end Assignment

theorem emptyAssignment_requests (states : List RankState) : (emptyAssignment states).requests = [] := by
  simp [Assignment.requests, emptyAssignment, flatMap_map]

theorem emptyAssignment_ofRank (states : List RankState) (rank : Int) : (emptyAssignment states).ofRank rank = [] := by
  rw [ofRank]
  cases found : find rank (emptyAssignment states) with
  | none => rfl
  | some list =>
    have mem := mem_of_find list found
    simp only [emptyAssignment, mem_map, Prod.mk.injEq] at mem
    obtain ⟨_, _, _, empty⟩ := mem
    exact empty.symm

theorem length_le_charge (items : List RequestQueueItem) : items.length ≤ charge items := by
  induction items with
  | nil => simp [charge]
  | cons item rest ih =>
    simp only [charge, map_cons, sum_cons, length_cons] at ih ⊢
    omega

variable {cap : Nat}

abbrev Books := DefaultADPRouter.Placement

-- No request is lost, the counts follow the lists, and no rank is filled beyond the cap.
structure Placed (cap : Nat) (books : Books) (items : List RequestQueueItem) (final : Books) : Prop where
  size : final.numActive.length = books.numActive.length
  covers : final.assigned.Covers books.numActive.length
  total : final.numActive.sum + final.remaining.length = books.numActive.sum + books.remaining.length + items.length
  requests : (final.assigned.requests ++ final.remaining).Perm (books.assigned.requests ++ books.remaining ++ items)
  ledger : ∀ place : Nat, final.numActive.getD place 0 + (books.assigned.ofRank place).length =
    books.numActive.getD place 0 + (final.assigned.ofRank place).length
  capped : ∀ place, final.numActive.getD place 0 ≤ max (books.numActive.getD place 0) cap

variable {books final : Books} {item : RequestQueueItem} {rest : List RequestQueueItem}

theorem Placed.put_off (after : Placed cap { books with remaining := books.remaining ++ [item] } rest final) :
    Placed cap books (item :: rest) final := by
  have total := after.total
  have requests := after.requests
  simp only [length_append, length_singleton] at total
  refine ⟨after.size, after.covers, ?_, ?_, after.ledger, after.capped⟩
  · simp only [length_cons]
    omega
  · simpa using requests

theorem Placed.land {place : Nat} (inside : place < books.numActive.length) (free : books.numActive.getD place 0 < cap)
    (key : (place : Int) ∈ books.assigned.map Prod.fst)
    (after : Placed cap { books with
      numActive := books.numActive.modify place (· + 1)
      assigned := update (place : Int) (· ++ [item]) books.assigned } rest final) :
    Placed cap books (item :: rest) final := by
  have size : final.numActive.length = books.numActive.length := by simpa using after.size
  have total := after.total
  have requests := after.requests
  dsimp only at total
  rw [sum_modify _ place inside] at total
  refine ⟨size, by simpa using after.covers, ?_, ?_, ?_, ?_⟩
  · simp only [length_cons]
    omega
  · have moved : (Assignment.requests (update (place : Int) (· ++ [item]) books.assigned) ++ books.remaining ++ rest).Perm
        (books.assigned.requests ++ books.remaining ++ item :: rest) := by
      refine ((update_requests _ [item] key).append_right _ |>.append_right _).trans ?_
      simp only [append_assoc, singleton_append]
      exact Perm.append_left _ perm_middle.symm
    exact requests.trans moved
  · intro other
    have counted := after.ledger other
    simp only [update_ofRank _ _ [item] key] at counted
    by_cases here : other = place
    · subst here
      simp only [if_pos, length_append, length_singleton, getD_modify_here _ inside] at counted
      omega
    · have apart : ¬(other : Int) = place := fun equal => here (Int.ofNat.inj equal)
      rwa [if_neg apart, getD_modify_other _ here] at counted
  · intro other
    have bounded := after.capped other
    by_cases here : other = place
    · subst here
      simp only [getD_modify_here _ inside] at bounded
      omega
    · simpa only [getD_modify_other _ here] using bounded

theorem place_targeted_placed (items : List RequestQueueItem) : ∀ books : Books,
    books.assigned.Covers books.numActive.length → DefaultADPRouter.placeTargeted cap items books = .ok final →
    Placed cap books items final := by
  induction items with
  | nil =>
    intro books covers done
    cases done
    exact ⟨rfl, covers, by simp, by simp, fun _ => rfl, fun _ => le_max_left _ _⟩
  | cons item rest ih =>
    intro books covers done
    rw [DefaultADPRouter.placeTargeted] at done
    cases aimed : item.targetDpRank with
    | none =>
      simp only [aimed] at done
      exact (ih { books with remaining := books.remaining ++ [item] } covers done).put_off
    | some target =>
      cases found : pyIndex books.numActive.length target with
      | none => simp [aimed, found] at done
      | some place =>
        simp only [aimed, found] at done
        split_ifs at done with free
        · cases extended : books.assigned.extend target [item] with
          | error raised => simp [extended] at done
          | ok assigned =>
            obtain ⟨key, rfl⟩ := extend_cases target [item] extended
            obtain ⟨rank, rfl, within⟩ := ((covers.mem_keys target).mp key).rank
            cases (pyIndex_rank within).symm.trans found
            simp only [extended] at done
            exact (ih _ (by simpa using update_covers covers _ [item]) done).land within free key
        · exact (ih { books with remaining := books.remaining ++ [item] } covers done).put_off

end TrtLlm.Adp
