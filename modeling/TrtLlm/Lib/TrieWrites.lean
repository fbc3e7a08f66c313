import TrtLlm.Lib.TriePaths

set_option autoImplicit false

namespace TrtLlm.Lib
open List

namespace Trie
variable {Key Channel Value : Type} [DecidableEq Key]

section Shape
variable {trie : Trie Key Channel Value} {at_ : Nat} {edit : Table Channel Value → Table Channel Value}

omit [DecidableEq Key] in
theorem with_values_fields (other : Nat) : let node := (trie.withValues at_ edit).node other
    node.prev = (trie.node other).prev ∧ node.key = (trie.node other).key ∧ node.next = (trie.node other).next := by
  rcases node_modify_cases with same | ⟨_, changed⟩
  · rw [withValues, same]
    exact ⟨rfl, rfl, rfl⟩
  · rw [withValues, changed]
    exact ⟨rfl, rfl, rfl⟩

omit [DecidableEq Key] in
theorem with_values_here (inside : at_ < trie.nodes.length) :
    ((trie.withValues at_ edit).node at_).values = edit (trie.node at_).values := by
  rw [withValues, node_modify_here inside]

omit [DecidableEq Key] in
theorem with_values_other {other : Nat} (apart : other ≠ at_) : (trie.withValues at_ edit).node other = trie.node other :=
  node_modify_other apart

theorem with_values_find (other : Nat) (key : Key) :
    (trie.withValues at_ edit).findMatchingNode other key = trie.findMatchingNode other key := by
  rw [findMatchingNode, (with_values_fields other).2.2, findMatchingNode]

theorem with_values_walk (path : List Key) : ∀ start, (trie.withValues at_ edit).walk start path = trie.walk start path := by
  induction path with
  | nil => exact fun _ => rfl
  | cons key rest ih =>
    intro start
    rw [walk_cons, walk_cons, with_values_find]
    cases trie.findMatchingNode start key with
    | none => rfl
    | some child => exact ih child

theorem with_values_rooted (rooted : trie.Rooted) : (trie.withValues at_ edit).Rooted where
  linked := linked_same_shape (fun _ => ⟨rfl, rfl, rfl⟩) rooted.linked
  ordered := ordered_modify (fun _ => List.Subset.refl _) rooted.ordered
  forward := by
    intro other key child found
    rw [with_values_find] at found
    rw [(with_values_fields child).1, (with_values_fields child).2.1]
    exact rooted.forward other key child found
  named := by
    intro other parent up
    rw [(with_values_fields other).1] at up
    rw [(with_values_fields other).2.1]
    exact rooted.named other parent up
  distinct := fun other => by
    rw [(with_values_fields other).2.2]
    exact rooted.distinct other

theorem with_values_full (spared : Nat → Prop) (full : trie.FullBut spared) :
    (trie.withValues at_ edit).FullBut fun node => node = at_ ∨ spared node := by
  intro other key child found apart bare
  obtain ⟨aside, unspared⟩ := not_or.mp apart
  rw [with_values_find] at found
  rw [Bare, with_values_other aside] at bare
  exact full other key child found unspared bare

end Shape

theorem walk_inside {trie : Trie Key Channel Value} (rooted : trie.Rooted) {path : List Key} {at_ : Nat}
    (reached : trie.walk 0 path = some at_) : at_ < trie.nodes.length :=
  (walk_climbs rooted.ordered path 0 at_ rooted.linked.rooted reached).2

section Values
variable [DecidableEq Channel] {trie next : Trie Key Channel Value} {path : List Key} {at_ : Nat} {channel : Channel}

theorem with_values_stored (edit : Table Channel Value → Table Channel Value) (rooted : trie.Rooted)
    (reached : trie.walk 0 path = some at_) (other : List Key) (slot : Channel) : (trie.withValues at_ edit).stored other slot =
      if other = path then (edit (trie.node at_).values).find slot else trie.stored other slot := by
  unfold stored
  rw [with_values_walk]
  split
  · next same =>
    rw [same, reached]
    change ((trie.withValues at_ edit).node at_).values.find slot = _
    rw [with_values_here (walk_inside rooted reached)]
  next same =>
  cases there : trie.walk 0 other with
  | none => rfl
  | some target =>
    have apart : target ≠ at_ := by
      rintro rfl
      exact same (walk_injective rooted other path target there reached)
    change ((trie.withValues at_ edit).node target).values.find slot = _
    rw [with_values_other apart]
    rfl

theorem stored_here (reached : trie.walk 0 path = some at_) : trie.stored path channel = trie.getValue at_ channel := by
  rw [stored, reached]
  rfl

section Clears
variable (rooted : trie.Rooted) (done : trie.clearValue at_ channel = some next)

include rooted done

theorem clear_value_erodes : (trie.withValues at_ fun values => values.clear channel).Rooted ∧
    Erodes at_ (trie.withValues at_ fun values => values.clear channel) next := by
  obtain rfl := clear_value_prunes done
  exact ⟨with_values_rooted rooted, prune_erodes _ _ _ (with_values_rooted rooted)⟩

theorem clear_value_rooted : next.Rooted := by
  obtain ⟨cleared, erodes⟩ := clear_value_erodes rooted done
  exact erodes.rooted cleared

theorem clear_value_stored (reached : trie.walk 0 path = some at_) (other : List Key) (slot : Channel) :
    next.stored other slot = if other = path ∧ slot = channel then none else trie.stored other slot := by
  obtain ⟨_, erodes⟩ := clear_value_erodes rooted done
  rw [erodes.stored, with_values_stored _ rooted reached]
  split
  · next here =>
    rw [Table.find_clear]
    split
    · next own =>
      rw [if_pos ⟨here, own⟩]
    · next own =>
      rw [if_neg fun both => own both.2, here, stored_here reached]
      rfl
  · next here =>
    rw [if_neg fun both => here both.1]

theorem clear_value_older (other : List Key) (target : Nat) (there : next.walk 0 other = some target) :
    trie.walk 0 other = some target := by
  obtain ⟨_, erodes⟩ := clear_value_erodes rooted done
  have known := erodes.older other target there
  rw [with_values_walk] at known
  exact known

theorem clear_value_kept (reached : trie.walk 0 path = some at_) (other : List Key) (target : Nat)
    (there : trie.walk 0 other = some target) (aside : ¬other <+: path) : next.walk 0 other = some target := by
  obtain ⟨cleared, erodes⟩ := clear_value_erodes rooted done
  refine erodes.kept cleared path other target ?_ ?_ aside
  · rw [with_values_walk, reached]
  · rw [with_values_walk, there]

theorem clear_value_full (spared : Nat → Prop) (full : trie.FullBut spared) (inside : at_ < trie.nodes.length) :
    next.FullBut spared := by
  obtain rfl := clear_value_prunes done
  exact prune_full spared _ _ at_ (with_values_rooted rooted) (with_values_full spared full) (Nat.le_of_lt inside)

end Clears

section Sets
variable {val : Value} (done : trie.setValue at_ channel val = some next)

include done

omit [DecidableEq Key] in
theorem set_value_vacant : trie.getValue at_ channel = none ∧
      next = trie.withValues at_ fun values => (channel, val) :: values := by
  unfold setValue at done
  cases occupied : trie.getValue at_ channel with
  | some _ =>
    rw [occupied] at done
    cases done
  | none =>
    rw [occupied] at done
    exact ⟨rfl, (Option.some.inj done).symm⟩

theorem set_value_rooted (rooted : trie.Rooted) : next.Rooted := by
  obtain ⟨_, rfl⟩ := set_value_vacant done
  exact with_values_rooted rooted

theorem set_value_walk (other : List Key) : next.walk 0 other = trie.walk 0 other := by
  obtain ⟨_, rfl⟩ := set_value_vacant done
  exact with_values_walk other 0

theorem set_value_stored (rooted : trie.Rooted) (reached : trie.walk 0 path = some at_) (other : List Key) (slot : Channel) :
    next.stored other slot = if other = path ∧ slot = channel then some val else trie.stored other slot := by
  obtain ⟨_, rfl⟩ := set_value_vacant done
  rw [with_values_stored _ rooted reached]
  split
  · next here =>
    rw [Table.find_cons]
    by_cases own : slot = channel
    · rw [if_pos own.symm, if_pos ⟨here, own⟩]
    · rw [if_neg fun equal => own equal.symm, if_neg fun both => own both.2, here, stored_here reached]
      rfl
  · next here =>
    rw [if_neg fun both => here both.1]

theorem set_value_full (spared : Nat → Prop) (full : trie.FullBut spared) (inside : at_ < trie.nodes.length) :
    next.FullBut spared ∧ ¬next.Bare at_ := by
  obtain ⟨_, rfl⟩ := set_value_vacant done
  have here : ¬(trie.withValues at_ fun values => (channel, val) :: values).Bare at_ := by
    rw [Bare, with_values_here inside]
    rintro ⟨empty, _⟩
    cases empty
  refine ⟨?_, here⟩
  intro other key child found apart
  rw [with_values_find] at found
  by_cases same : child = at_
  · rw [same]
    exact here
  · rw [Bare, with_values_other same]
    exact full other key child found apart

end Sets

omit [DecidableEq Key] in
theorem not_bare_of_value {val : Value} (occupied : trie.getValue at_ channel = some val) : ¬trie.Bare at_ := by
  intro bare
  rw [getValue, bare.1] at occupied
  cases occupied

end Values

section Growth
variable (trie : Trie Key Channel Value) (at_ : Nat) (key : Key)

theorem rooted_empty : (empty : Trie Key Channel Value).Rooted where
  linked := linked_empty
  ordered := ordered_empty
  forward := by
    intro at_ key child found
    rw [findMatchingNode, empty_node] at found
    cases found
  named := by
    intro at_ parent up
    rw [empty_node] at up
    cases up
  distinct := by
    intro at_
    rw [empty_node]
    exact nodup_nil

theorem full_empty : (empty : Trie Key Channel Value).Full := by
  intro at_ key child found _
  rw [findMatchingNode, empty_node] at found
  cases found

variable {trie at_ key}
variable (inside : at_ < trie.nodes.length)

include inside

theorem add_child_edge (other : Nat) (name : Key) (child : Nat)
    (found : (trie.addChild at_ key).findMatchingNode other name = some child) :
    trie.findMatchingNode other name = some child ∨ (other = at_ ∧ name = key ∧ child = trie.nodes.length) := by
  rw [find_add_child other name inside] at found
  split at found
  · rename_i here
    cases old : trie.findMatchingNode other name with
    | some known =>
      rw [old] at found
      exact .inl found
    | none =>
      rw [old, Option.none_or] at found
      split at found
      · rename_i same
        exact .inr ⟨here, same.symm, (Option.some.inj found).symm⟩
      · cases found
  · exact .inl found

omit inside

theorem rooted_add_child (rooted : trie.Rooted) (inside : at_ < trie.nodes.length)
    (missing : trie.findMatchingNode at_ key = none) : (trie.addChild at_ key).Rooted where
  linked := linked_add_child rooted.linked inside missing
  ordered := ordered_add_child rooted.ordered inside
  forward := by
    intro other name child found
    rw [add_child_node child inside]
    rcases add_child_edge inside other name child found with old | ⟨rfl, rfl, rfl⟩
    · have bounds := child_bounds rooted.ordered old
      rw [if_neg (by omega)]
      split <;> exact rooted.forward other name child old
    · rw [if_pos rfl]
      exact ⟨rfl, rfl⟩
  named := by
    intro other parent up
    rw [add_child_node other inside] at up ⊢
    by_cases last : other = trie.nodes.length
    · rw [if_pos last]
      exact ⟨key, rfl⟩
    rw [if_neg last] at up ⊢
    by_cases here : other = at_
    · rw [if_pos here] at up ⊢
      exact rooted.named other parent up
    · rw [if_neg here] at up ⊢
      exact rooted.named other parent up
  distinct := by
    intro other
    rw [add_child_node other inside]
    split
    · exact nodup_nil
    split
    · next here =>
      rw [map_append, nodup_append]
      refine ⟨rooted.distinct other, pairwise_singleton _ _, ?_⟩
      rintro name known _ (_ | _) rfl
      · exact Table.not_mem_keys (here ▸ missing) known
      · contradiction
    · exact rooted.distinct other

theorem walk_add_child_older (rooted : trie.Rooted) (inside : at_ < trie.nodes.length)
    (missing : trie.findMatchingNode at_ key = none) (path : List Key) : ∀ start target, start < trie.nodes.length →
    (trie.addChild at_ key).walk start path = some target → target < trie.nodes.length → trie.walk start path = some target := by
  have ordered := (rooted_add_child rooted inside missing).ordered
  induction path with
  | nil => exact fun _ _ _ reached _ => reached
  | cons name rest ih =>
    intro start target small reached old
    rw [walk_cons, Option.bind_eq_some_iff] at reached
    obtain ⟨child, found, later⟩ := reached
    have bounds := child_bounds ordered found
    have climbs := walk_climbs ordered rest child target bounds.2 later
    rcases add_child_edge inside start name child found with known | ⟨_, _, fresh⟩
    · rw [walk_cons, known]
      exact ih child target (by omega) later old
    · omega

theorem full_but_add_child (inside : at_ < trie.nodes.length) (full : trie.FullBut fun node => node = at_) :
    (trie.addChild at_ key).FullBut fun node => node = trie.nodes.length := by
  intro other name child found apart bare
  have node : (trie.addChild at_ key).node child = _ := add_child_node child inside
  rw [if_neg apart] at node
  rcases add_child_edge inside other name child found with old | ⟨_, _, fresh⟩
  · split at node
    · have edges := bare.2
      rw [node] at edges
      simp at edges
    · next here =>
      rw [Bare, node] at bare
      exact full other name child old here bare
  · exact apart fresh

variable (trie at_ key)

structure Grown (start : Nat) (keys : List Key) (grown : Trie Key Channel Value × List Nat) : Prop where
  rooted : grown.1.Rooted
  longer : trie.nodes.length ≤ grown.1.nodes.length
  kept : ∀ at_ path target, trie.walk at_ path = some target → grown.1.walk at_ path = some target
  older : ∀ at_ path target, at_ < trie.nodes.length → grown.1.walk at_ path = some target →
    target < trie.nodes.length → trie.walk at_ path = some target
  count : grown.2.length = keys.length
  placed : ∀ index node, grown.2[index]? = some node → grown.1.walk start (keys.take (index + 1)) = some node
  full : (trie.FullBut fun node => node = start) → grown.1.FullBut fun node => node = grown.2.getLastD start

theorem insert_from_grown (keys : List Key) : ∀ (trie : Trie Key Channel Value) (at_ : Nat), trie.Rooted →
    at_ < trie.nodes.length → trie.Grown at_ keys (trie.insertNodesFrom at_ keys) := by
  induction keys with
  | nil =>
    intro trie at_ rooted inside
    exact ⟨rooted, Nat.le_refl _, fun _ _ _ reached => reached, fun _ _ _ _ reached _ => reached, rfl,
      (fun _ _ found => by cases found), fun full => full⟩
  | cons key rest ih =>
    intro trie at_ rooted inside
    rw [insertNodesFrom]
    cases found : trie.findMatchingNode at_ key with
    | some child =>
      have bounds := child_bounds rooted.ordered found
      have later := ih trie child rooted bounds.2
      have edge : (trie.insertNodesFrom child rest).1.findMatchingNode at_ key = some child := by
        rw [← walk_one] at found ⊢
        exact later.kept at_ [key] child found
      refine ⟨later.rooted, later.longer, later.kept, later.older, by simp [later.count], ?_, ?_⟩
      · intro idx node placed
        rw [take_succ_cons, walk_cons, edge]
        cases idx with
        | zero =>
          cases placed
          rfl
        | succ idx => exact later.placed idx node placed
      · intro full
        rw [getLastD_cons]
        apply later.full
        intro other name target known apart
        by_cases same : target = at_
        · rintro ⟨_, edges⟩
          rw [findMatchingNode, ← same, edges] at found
          cases found
        · exact full other name target known same
    | none =>
      have fresh : trie.nodes.length < (trie.addChild at_ key).nodes.length := by simp [addChild]
      have child := rooted_add_child rooted inside found
      have later := ih (trie.addChild at_ key) trie.nodes.length child fresh
      have edge : ((trie.addChild at_ key).insertNodesFrom trie.nodes.length rest).1.findMatchingNode at_ key =
          some trie.nodes.length := by
        rw [← walk_one]
        apply later.kept
        rw [walk_one, find_add_child at_ key inside, if_pos rfl, found, if_pos rfl, Option.none_or]
      refine ⟨later.rooted, Nat.le_trans (Nat.le_of_lt fresh) later.longer, ?_, ?_, by simp [later.count], ?_, ?_⟩
      · intro start path target reached
        apply later.kept
        refine walk_of_edges _ (fun other name child found => ?_) path start target reached
        rw [find_add_child other name inside, found, Option.some_or, ite_self]
      · intro start path target small reached old
        refine walk_add_child_older rooted inside found path start target small ?_ old
        exact later.older start path target (Nat.lt_trans small fresh) reached (Nat.lt_trans old fresh)
      · intro idx node placed
        rw [take_succ_cons, walk_cons, edge]
        cases idx with
        | zero =>
          cases placed
          rfl
        | succ idx => exact later.placed idx node placed
      · intro full
        rw [getLastD_cons]
        exact later.full (full_but_add_child inside full)

variable {trie at_ key}

theorem insert_grown (keys : List Key) (rooted : trie.Rooted) : trie.Grown 0 keys (trie.insertNodes keys) :=
  insert_from_grown keys trie 0 rooted rooted.linked.rooted

theorem insert_stored [DecidableEq Channel] (keys : List Key) (rooted : trie.Rooted) (path : List Key) (channel : Channel) :
    (trie.insertNodes keys).1.stored path channel = trie.stored path channel := by
  have grown := insert_grown keys rooted
  unfold stored
  cases reached : trie.walk 0 path with
  | some target =>
    rw [grown.kept 0 path target reached]
    exact get_value_insert target channel keys
  | none =>
    cases later : (trie.insertNodes keys).1.walk 0 path with
    | none => rfl
    | some target =>
      by_cases old : target < trie.nodes.length
      · rw [grown.older 0 path target rooted.linked.rooted later old] at reached
        cases reached
      · change (trie.insertNodes keys).1.getValue target channel = none
        rw [get_value_insert, getValue, node_outside trie target (Nat.le_of_not_lt old)]
        rfl

variable (trie at_ key)

theorem value_below [DecidableEq Channel] (rooted : trie.Rooted) (full : trie.Full) (room : Nat) :
    ∀ (path : List Key) (at_ : Nat), trie.nodes.length - at_ ≤ room → path ≠ [] → trie.walk 0 path = some at_ →
    ∃ rest channel, (trie.stored (path ++ rest) channel).isSome = true := by
  induction room with
  | zero =>
    intro path at_ small _ reached
    have inside := walk_inside rooted reached
    omega
  | succ room ih =>
    intro path at_ small nonempty reached
    obtain ⟨before, last, rfl⟩ := (eq_nil_or_concat' path).resolve_left nonempty
    obtain ⟨parent, _, edge⟩ := (walk_snoc 0 at_ before last).mp reached
    have loaded := full parent last at_ edge not_false
    cases held : (trie.node at_).values with
    | cons entry others =>
      refine ⟨[], entry.1, ?_⟩
      rw [append_nil, stored_here reached, getValue, held, Table.find_cons, if_pos rfl]
      rfl
    | nil =>
      cases below : (trie.node at_).next with
      | nil => exact absurd ⟨held, below⟩ loaded
      | cons entry others =>
        have found : trie.findMatchingNode at_ entry.1 = some entry.2 := by
          rw [findMatchingNode, below, Table.find_cons, if_pos rfl]
        have bounds := child_bounds rooted.ordered found
        obtain ⟨rest, channel, some_value⟩ := ih (before ++ [last] ++ [entry.1]) entry.2 (by omega) (by simp)
          ((walk_snoc 0 entry.2 _ entry.1).mpr ⟨at_, reached, found⟩)
        exact ⟨entry.1 :: rest, channel, by rw [append_cons]; exact some_value⟩

end Growth
end Trie
end TrtLlm.Lib
