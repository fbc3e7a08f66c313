import Mathlib

set_option autoImplicit false

namespace TrtLlm.Lib
open List

-- Only the first entry of a key counts.
abbrev Table (Key Value : Type) := List (Key × Value)

namespace Table
variable {Key Value : Type} [DecidableEq Key]

def find (key : Key) : Table Key Value → Option Value
  | [] => none
  | entry :: rest => if entry.1 = key then some entry.2 else find key rest

def update (key : Key) (change : Value → Value) : Table Key Value → Table Key Value
  | [] => []
  | entry :: rest => if entry.1 = key then (key, change entry.2) :: rest else entry :: update key change rest

def remove (key : Key) : Table Key Value → Table Key Value
  | [] => []
  | entry :: rest => if entry.1 = key then rest else entry :: remove key rest

-- In place where the key is there, at the end where it is new.
def put (key : Key) (value : Value) : Table Key Value → Table Key Value
  | [] => [(key, value)]
  | entry :: rest => if entry.1 = key then (key, value) :: rest else entry :: put key value rest

def clear (key : Key) (table : Table Key Value) : Table Key Value := table.filter fun entry => decide (entry.1 ≠ key)

def total (measure : Value → Nat) (table : Table Key Value) : Nat :=
  (table.map fun entry => measure entry.2).sum

variable (key : Key) (table : Table Key Value)

theorem find_cons (entry : Key × Value) (other : Key) :
    find other (entry :: table) = if entry.1 = other then some entry.2 else find other table := rfl

variable (measure : Value → Nat) (change : Value → Value) (value : Value) (other : Key)

theorem find_head : find other ((key, value) :: table) = if other = key then some value else find other table := by
  simp only [find_cons, eq_comm]

variable {key table other} in
theorem find_later {entry : Key × Value} {changed : Table Key Value} {res : Option Value} (here : ¬entry.1 = key)
    (ih : find other changed = if other = key then res else find other table) :
    find other (entry :: changed) = if other = key then res else find other (entry :: table) := by
  rw [find_cons, find_cons, ih]
  by_cases found : entry.1 = other
  · have apart : ¬other = key := fun equal => here (found.trans equal)
    rw [if_pos found, if_neg apart, if_pos found]
  · rw [if_neg found, if_neg found]

theorem find_clear : find other (clear key table) = if other = key then none else find other table := by
  induction table with
  | nil => simp [clear, find]
  | cons entry rest ih =>
    by_cases gone : entry.1 = key
    · have skipped : clear key (entry :: rest) = clear key rest := by simp [clear, gone]
      rw [skipped, ih, ← gone, find_head]
      split <;> rfl
    · have kept : clear key (entry :: rest) = entry :: clear key rest := by simp [clear, gone]
      rw [kept]
      exact find_later gone ih

variable {key table}

theorem find_update :
    find other (update key change table) = if other = key then (find key table).map change else find other table := by
  induction table with
  | nil => simp [update, find]
  | cons entry rest ih =>
    by_cases here : entry.1 = key
    · subst here
      rw [update, if_pos rfl, find_head, find_head, find_head, if_pos rfl]
      split <;> rfl
    · rw [update, if_neg here, find_cons _ entry key, if_neg here]
      exact find_later here ih

variable (key table)

theorem find_put : find other (put key value table) = if other = key then some value else find other table := by
  induction table with
  | nil => exact find_head ..
  | cons entry rest ih =>
    by_cases here : entry.1 = key
    · subst here
      rw [put, if_pos rfl, find_head, find_head]
      split <;> rfl
    · rw [put, if_neg here]
      exact find_later here ih

variable {key table}

theorem put_missing (missing : find key table = none) : put key value table = table ++ [(key, value)] := by
  induction table with
  | nil => rfl
  | cons entry rest ih =>
    rw [find] at missing
    split at missing
    · cases missing
    · next here =>
      rw [put, if_neg here, ih missing]
      rfl

variable (key table)

theorem mem_update (entry : Key × Value) (mem : entry ∈ update key change table) :
    entry ∈ table ∨ ∃ value, find key table = some value ∧ entry = (key, change value) := by
  induction table with
  | nil => exact .inl mem
  | cons head rest ih =>
    rw [update] at mem
    split at mem
    · next here =>
      rcases mem_cons.mp mem with same | later
      · exact .inr ⟨head.2, by simp [find, here], same⟩
      · exact .inl (mem_cons_of_mem _ later)
    next here =>
    rcases mem_cons.mp mem with same | later
    · exact .inl (same ▸ mem_cons_self)
    · rcases ih later with old | ⟨value, found, equal⟩
      · exact .inl (mem_cons_of_mem _ old)
      · exact .inr ⟨value, by rw [find, if_neg here, found], equal⟩

variable {key table}

theorem update_missing (missing : find key table = none) : update key change table = table := by
  induction table with
  | nil => rfl
  | cons head rest ih =>
    rw [find] at missing
    split at missing
    · cases missing
    · next here =>
      rw [update, if_neg here, ih missing]

theorem keys_update : (update key change table).map Prod.fst = table.map Prod.fst := by
  induction table with
  | nil => rfl
  | cons head rest ih =>
    rw [update]
    split
    · next here =>
      rw [map_cons, map_cons, here]
    · rw [map_cons, map_cons, ih]

theorem mem_keys_put : other ∈ (put key value table).map Prod.fst ↔ other = key ∨ other ∈ table.map Prod.fst := by
  induction table with
  | nil => simp [put]
  | cons head rest ih =>
    rw [put]
    split
    · next here =>
      simp [here]
    · rw [map_cons, map_cons, mem_cons, mem_cons, ih]
      tauto

variable (key table)

theorem nodup_put (nodup : (table.map Prod.fst).Nodup) : ((put key value table).map Prod.fst).Nodup := by
  induction table with
  | nil => exact nodup_singleton key
  | cons head rest ih =>
    rw [map_cons, nodup_cons] at nodup
    rw [put]
    split
    · next here =>
      rw [map_cons, nodup_cons, ← here]
      exact nodup
    · next here =>
      rw [map_cons, nodup_cons, mem_keys_put]
      exact ⟨not_or.mpr ⟨here, nodup.1⟩, ih nodup.2⟩

variable {key table}

theorem remove_sublist : (remove key table).Sublist table := by
  induction table with
  | nil => exact List.Sublist.refl _
  | cons head rest ih =>
    rw [remove]
    split
    · exact sublist_cons_self _ _
    · exact ih.cons_cons _

theorem mem_remove (entry : Key × Value) (mem : entry ∈ remove key table) : entry ∈ table :=
  (remove_sublist).subset mem

theorem keys_remove : ((remove key table).map Prod.fst).Sublist (table.map Prod.fst) := (remove_sublist).map _

variable (found : find key table = some value)

include found

theorem remove_perm : ((key, value) :: remove key table).Perm table := by
  induction table with
  | nil => cases found
  | cons head rest ih =>
    rw [find] at found
    split at found
    · next here =>
      cases found
      rw [remove, if_pos here, ← here]
    · next here =>
      rw [remove, if_neg here]
      exact (List.Perm.swap head (key, value) _).trans ((ih found).cons head)

theorem mem_of_find : (key, value) ∈ table := by
  induction table with
  | nil => cases found
  | cons head rest ih =>
    rw [find] at found
    split at found
    · next here =>
      cases found
      rw [← here]
      exact mem_cons_self
    · exact mem_cons_of_mem _ (ih found)

variable (key table)

theorem mem_keys : key ∈ table.map Prod.fst :=
  mem_map.mpr ⟨(key, value), mem_of_find value found, rfl⟩

omit found

variable {key table}

theorem find_none (missing : key ∉ table.map Prod.fst) : find key table = none := by
  cases found : find key table with
  | none => rfl
  | some value => exact absurd (mem_keys key table value found) missing

theorem not_mem_keys (missing : find key table = none) : key ∉ table.map Prod.fst := by
  induction table with
  | nil => exact not_mem_nil
  | cons head rest ih =>
    rw [find] at missing
    split at missing
    · cases missing
    next here =>
    intro mem
    rcases mem_cons.mp mem with same | later
    · exact here same.symm
    · exact ih missing later

theorem find_remove (nodup : (table.map Prod.fst).Nodup) :
    find other (remove key table) = if other = key then none else find other table := by
  induction table with
  | nil => simp [remove, find]
  | cons head rest ih =>
    rw [map_cons, nodup_cons] at nodup
    rw [remove]
    split
    · next here =>
      by_cases same : other = key
      · rw [if_pos same, same]
        exact find_none (here ▸ nodup.1)
      · have apart : ¬head.1 = other := fun equal => same (equal.symm.trans here)
        rw [if_neg same, find_cons, if_neg apart]
    · next here => exact find_later here (ih nodup.2)

theorem find_of_mem (nodup : (table.map Prod.fst).Nodup) (mem : (key, value) ∈ table) : find key table = some value := by
  induction table with
  | nil => cases mem
  | cons head rest ih =>
    rw [map_cons, nodup_cons] at nodup
    rcases mem_cons.mp mem with same | later
    · rw [find_cons, if_pos (congrArg Prod.fst same.symm), ← same]
    have apart : ¬head.1 = key := by
      rintro rfl
      exact nodup.1 (mem_map.mpr ⟨(head.1, value), later, rfl⟩)
    rw [find_cons, if_neg apart]
    exact ih nodup.2 later

theorem total_update (found : find key table = some value) :
    total measure (update key change table) + measure value = total measure table + measure (change value) := by
  induction table with
  | nil => cases found
  | cons head rest ih =>
    rw [find] at found
    split at found
    · next here =>
      cases found
      simp only [update, if_pos here, total, map_cons, sum_cons]
      omega
    · next here =>
      have later := ih found
      simp only [update, if_neg here, total, map_cons, sum_cons] at later ⊢
      omega

theorem total_remove (found : find key table = some value) :
    total measure (remove key table) + measure value = total measure table := by
  have whole := ((remove_perm value found).map fun entry => measure entry.2).sum_nat
  rw [Nat.add_comm]
  exact whole

variable (key table)

theorem total_put :
    total measure (put key value table) + ((find key table).map measure).getD 0 = total measure table + measure value := by
  induction table with
  | nil => simp [put, total, find]
  | cons head rest ih =>
    by_cases here : head.1 = key
    · simp only [put, find, if_pos here, total, map_cons, sum_cons, Option.map_some, Option.getD_some]
      omega
    · simp only [put, find, if_neg here, total, map_cons, sum_cons] at ih ⊢
      omega

theorem total_clear (nodup : (table.map Prod.fst).Nodup) :
    total measure (clear key table) + ((find key table).map measure).getD 0 = total measure table := by
  induction table with
  | nil => rfl
  | cons head rest ih =>
    rw [map_cons, nodup_cons] at nodup
    have later := ih nodup.2
    by_cases here : head.1 = key
    · rw [find_none (here ▸ nodup.1)] at later
      have skipped : clear key (head :: rest) = clear key rest := by simp [clear, here]
      rw [skipped, find, if_pos here]
      simp only [total, map_cons, sum_cons, Option.map_none, Option.map_some, Option.getD_none, Option.getD_some] at later ⊢
      omega
    · have kept : clear key (head :: rest) = head :: clear key rest := by simp [clear, here]
      rw [kept, find, if_neg here]
      simp only [total, map_cons, sum_cons] at later ⊢
      omega

variable {key table}

theorem find_foldl_clear (keys : List Key) :
    find key (keys.foldl (fun table gone => clear gone table) table) = if key ∈ keys then none else find key table := by
  induction keys generalizing table with
  | nil => simp
  | cons gone rest ih =>
    rw [foldl_cons, ih, find_clear]
    by_cases later : key ∈ rest
    · simp [later]
    · by_cases here : key = gone <;> simp [later, here]

theorem filter_map_update {Part : Type} (part : Value → Option Part) (change : Value → Value)
    (same : ∀ value, part (change value) = part value) :
    (update key change table).filterMap (fun entry => part entry.2) = table.filterMap fun entry => part entry.2 := by
  induction table with
  | nil => rfl
  | cons head rest ih =>
    rw [update]
    split
    · rw [filterMap_cons, filterMap_cons, same]
    · rw [filterMap_cons, filterMap_cons, ih]

theorem find_map : find key (table.map fun entry => (entry.1, change entry.2)) = (find key table).map change := by
  induction table with
  | nil => rfl
  | cons head rest ih =>
    rw [map_cons, find]
    split
    · next here =>
      rw [find, if_pos here]
      rfl
    · next here =>
      rw [find, if_neg here, ih]

end Table
end TrtLlm.Lib
