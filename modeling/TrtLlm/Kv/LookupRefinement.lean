import TrtLlm.Kv.LookupTree

set_option autoImplicit false

namespace TrtLlm.Kv
open List Lib Function Trie LookupTree BlockMap

-- The tree holds the entries of the map, an attached block at the node of its place.
structure Represents (s : BlockTree) (map : BlockMap) : Prop where
  rooted : s.tree.Rooted
  stored : ∀ pkey windowSize, s.tree.stored pkey windowSize = map.entry pkey windowSize
  bare_root : ∀ windowSize, map.entry [] windowSize = none
  placed : ∀ block pkey windowSize, map.place block = some (pkey, windowSize) → map.entry pkey windowSize = some block ∧
      ∃ node, s.lookupNode block = some (node, windowSize) ∧ s.tree.walk 0 pkey = some node
  loose : ∀ block, map.place block = none → s.lookupNode block = none

theorem BlockMap.place_remove (map : BlockMap) (block other : Nat) :
    (map.remove block).place other = if other = block then none else map.place other := by
  unfold remove
  cases place : map.place block with
  | none =>
    by_cases same : other = block
    · rw [if_pos same, same, place]
    · rw [if_neg same]
  | some spot =>
    change update map.place block none other = _
    split
    · next same =>
      rw [same, update_self]
    · next same =>
      rw [update_of_ne same]

section Writes
variable (tree : LookupTree) {node : Nat} {windowSize : Int} {block : Nat}

theorem try_set_cases : (∃ old, tree.getValue node windowSize = some old ∧ trySetBlock tree node windowSize block = tree) ∨
      (tree.getValue node windowSize = none ∧
        tree.setValue node windowSize block = some (trySetBlock tree node windowSize block)) := by
  unfold trySetBlock setValue
  cases tree.getValue node windowSize with
  | some old => exact .inl ⟨old, rfl, rfl⟩
  | none => exact .inr ⟨rfl, rfl⟩

theorem try_set_walk (path : List BlockKey) : walk (trySetBlock tree node windowSize block) 0 path = tree.walk 0 path := by
  rcases try_set_cases tree with ⟨_, _, same⟩ | ⟨_, set⟩
  · rw [same]
  · exact set_value_walk set path

theorem try_set_length : (trySetBlock tree node windowSize block).nodes.length = tree.nodes.length := by
  rcases try_set_cases tree with ⟨_, _, same⟩ | ⟨_, set⟩
  · rw [same]
  · obtain ⟨_, changed⟩ := set_value_vacant set
    rw [changed]
    exact Trie.length_modify ..

variable (node windowSize block)

theorem try_set_full (spared : Nat → Prop) (inside : node < tree.nodes.length) (full : tree.FullBut spared) :
    FullBut (trySetBlock tree node windowSize block) spared ∧ ¬Bare (trySetBlock tree node windowSize block) node := by
  rcases try_set_cases tree with ⟨old, occupied, same⟩ | ⟨_, set⟩
  · rw [same]
    exact ⟨full, not_bare_of_value occupied⟩
  · exact set_value_full set spared full inside

end Writes

namespace Represents
variable {s : BlockTree} {map : BlockMap} (rep : Represents s map)

include rep

variable (pkey : List BlockKey) (block : Nat) (next : BlockTree)

theorem value_at (node : Nat) (reached : s.tree.walk 0 pkey = some node) (windowSize : Int) :
    s.tree.getValue node windowSize = map.entry pkey windowSize := by
  rw [← rep.stored, stored_here reached]

theorem with_nodes (pkey : List BlockKey) : Represents { s with tree := (s.tree.insertNodes pkey).1 } map where
  rooted := (insert_grown pkey rep.rooted).rooted
  stored := fun path windowSize => by rw [insert_stored pkey rep.rooted, rep.stored]
  bare_root := rep.bare_root
  placed := by
    intro block path windowSize place
    obtain ⟨entry, node, handle, reached⟩ := rep.placed block path windowSize place
    exact ⟨entry, node, handle, (insert_grown pkey rep.rooted).kept 0 path node reached⟩
  loose := rep.loose

theorem try_set (node : Nat) (windowSize : Int) (block : Nat) (reached : s.tree.walk 0 pkey = some node) (nonempty : pkey ≠ []) :
    Represents { s with tree := trySetBlock s.tree node windowSize block } (map.putNew pkey windowSize block) := by
  rcases try_set_cases s.tree with ⟨old, occupied, same⟩ | ⟨vacant, set⟩
  · rw [same, putNew, if_pos]
    · exact rep
    · rw [← rep.value_at pkey node reached, occupied]
      exact .inr rfl
  have free : map.entry pkey windowSize = none := by rw [← rep.value_at pkey node reached, vacant]
  rw [putNew, if_neg (by simp [nonempty, free])]
  refine ⟨set_value_rooted set rep.rooted, ?_, ?_, ?_, rep.loose⟩
  · intro path window
    rw [set_value_stored set rep.rooted reached, rep.stored]
    rfl
  · intro window
    change (if [] = pkey ∧ window = windowSize then _ else map.entry [] window) = none
    rw [if_neg fun both => nonempty both.1.symm, rep.bare_root]
  intro other path window place
  obtain ⟨entry, place_node, handle, there⟩ := rep.placed other path window place
  refine ⟨?_, place_node, handle, ?_⟩
  · change (if path = pkey ∧ window = windowSize then _ else map.entry path window) = some other
    rw [if_neg, entry]
    rintro ⟨rfl, rfl⟩
    rw [free] at entry
    cases entry
  · rw [set_value_walk set]
    exact there

theorem no_nodes (pkey : List BlockKey) (last : (s.tree.insertNodes pkey).2.getLast? = none) : pkey = [] := by
  have count := (insert_grown pkey rep.rooted).count
  rw [getLast?_eq_none_iff.mp last] at count
  exact eq_nil_of_length_eq_zero count.symm

theorem last_node (pkey : List BlockKey) (node : Nat) (last : (s.tree.insertNodes pkey).2.getLast? = some node) :
    pkey ≠ [] ∧ (s.tree.insertNodes pkey).1.walk 0 pkey = some node := by
  have grown := insert_grown pkey rep.rooted
  rw [getLast?_eq_getElem?, grown.count] at last
  have nonempty : pkey ≠ [] := by
    rintro rfl
    cases last
  have reached := grown.placed _ node last
  rw [Nat.sub_add_cancel (length_pos_of_ne_nil nonempty), take_length] at reached
  exact ⟨nonempty, reached⟩

theorem insert_block (pkey : List BlockKey) (windowSize : Int) (block : Nat) :
    Represents { s with tree := insertBlock s.tree pkey windowSize block } (map.putNew pkey windowSize block) := by
  unfold insertBlock
  dsimp only
  cases last : (s.tree.insertNodes pkey).2.getLast? with
  | none =>
    rw [putNew, if_pos (.inl (rep.no_nodes pkey last))]
    exact rep.with_nodes pkey
  | some node =>
    obtain ⟨nonempty, reached⟩ := rep.last_node pkey node last
    exact (rep.with_nodes pkey).try_set pkey node windowSize block reached nonempty

omit rep in
theorem place_blocks (windowSize : Int) (nonempty : pkey ≠ []) (blocks : List (Option Nat)) :
    ∀ (nodes : List Nat) (depth : Nat) (s : BlockTree) (map : BlockMap), Represents s map →
    (∀ idx node, nodes[idx]? = some node → s.tree.walk 0 (pkey.take (depth + idx + 1)) = some node) →
    nodes.length = blocks.length → Represents { s with tree := placeBlocks windowSize (nodes.zip blocks) s.tree }
      (putAll pkey windowSize depth blocks map) := by
  induction blocks with
  | nil =>
    intro nodes depth s map rep _ _
    rw [zip_nil_right]
    exact rep
  | cons block rest ih =>
    intro nodes depth s map rep reached count
    cases nodes with
    | nil => cases count
    | cons node others =>
      have later : ∀ idx target, others[idx]? = some target →
          s.tree.walk 0 (pkey.take (depth + 1 + idx + 1)) = some target := by
        intro idx target found
        have place := reached (idx + 1) target found
        rw [show depth + 1 + idx + 1 = depth + (idx + 1) + 1 by omega]
        exact place
      cases block with
      | none => exact ih others (depth + 1) s map rep later (Nat.succ.inj count)
      | some block =>
        have here := reached 0 node rfl
        have set := rep.try_set (pkey.take (depth + 1)) node windowSize block here (by simp [nonempty])
        refine ih others (depth + 1) _ _ set ?_ (Nat.succ.inj count)
        intro idx target found
        rw [try_set_walk]
        exact later idx target found

theorem insert_blocks (windowSize : Int) (blocks : List (Option Nat)) (tree : LookupTree)
    (done : insertBlocks s.tree pkey windowSize blocks = some tree) :
    Represents { s with tree := tree } (putAll pkey windowSize 0 blocks map) := by
  unfold insertBlocks at done
  split at done
  · rename_i count
    cases done
    have grown := insert_grown pkey rep.rooted
    by_cases nonempty : pkey = []
    · subst nonempty
      rw [eq_nil_of_length_eq_zero count]
      exact rep
    · refine place_blocks pkey windowSize nonempty blocks _ 0 _ map (rep.with_nodes pkey) ?_ (grown.count.trans count.symm)
      intro idx node found
      rw [Nat.zero_add]
      exact grown.placed idx node found
  · cases done

section
variable (done : s.detachFromLookupNode block = some next)

include done

theorem detach_cases : (map.place block = none ∧ next = s) ∨ ∃ pkey windowSize node tree,
    map.place block = some (pkey, windowSize) ∧ s.tree.walk 0 pkey = some node ∧
      s.tree.clearValue node windowSize = some tree ∧ next = ⟨tree, update s.lookupNode block none⟩ := by
  unfold BlockTree.detachFromLookupNode at done
  cases place : map.place block with
  | none =>
    rw [rep.loose block place] at done
    exact .inl ⟨rfl, (Option.some.inj done).symm⟩
  | some spot =>
    obtain ⟨pkey, windowSize⟩ := spot
    obtain ⟨_, node, handle, reached⟩ := rep.placed block pkey windowSize place
    rw [handle] at done
    dsimp only at done
    split at done
    · cases done
    · next tree cleared =>
      cases done
      exact .inr ⟨pkey, windowSize, node, tree, rfl, reached, cleared, rfl⟩

theorem detach : Represents next (map.remove block) := by
  rcases rep.detach_cases block next done with ⟨place, rfl⟩ | ⟨pkey, windowSize, node, tree, place, reached, cleared, rfl⟩
  · rw [remove, place]
    exact rep
  rw [remove, place]
  have stored := clear_value_stored rep.rooted cleared reached
  refine ⟨clear_value_rooted rep.rooted cleared, ?_, ?_, ?_, ?_⟩
  · intro path window
    rw [stored, rep.stored]
    rfl
  · intro window
    change (if [] = pkey ∧ window = windowSize then none else map.entry [] window) = none
    rw [rep.bare_root, ite_self]
  · intro other path window elsewhere
    by_cases same : other = block
    · rw [same] at elsewhere
      change update map.place block none block = _ at elsewhere
      rw [update_self] at elsewhere
      cases elsewhere
    change update map.place block none other = _ at elsewhere
    rw [update_of_ne same] at elsewhere
    have aside : ¬(path = pkey ∧ window = windowSize) := by
      rintro ⟨rfl, rfl⟩
      have mine := (rep.placed block path window place).1
      exact same (Option.some.inj ((rep.placed other path window elsewhere).1.symm.trans mine))
    obtain ⟨entry, place_node, known, there⟩ := rep.placed other path window elsewhere
    refine ⟨?_, place_node, ?_, ?_⟩
    · change (if path = pkey ∧ window = windowSize then none else map.entry path window) = some other
      rw [if_neg aside, entry]
    · change update s.lookupNode block none other = _
      rw [update_of_ne same, known]
    have kept := stored path window
    rw [if_neg aside, rep.stored, entry] at kept
    obtain ⟨target, arrives, _⟩ := Option.bind_eq_some_iff.mp kept
    have older := clear_value_older rep.rooted cleared path target arrives
    rw [there] at older
    rw [arrives, older]
  · intro other free
    by_cases same : other = block
    · rw [same]
      exact update_self ..
    change update map.place block none other = none at free
    rw [update_of_ne same] at free
    change update s.lookupNode block none other = none
    rw [update_of_ne same, rep.loose other free]

theorem detach_keeps
    (target : List BlockKey) (window : Int) (beside : map.AttachesBeside (.attach target window block)) (node : Nat)
    (reached : s.tree.walk 0 target = some node) : next.tree.walk 0 target = some node := by
  rcases rep.detach_cases block next done with ⟨_, same⟩ | ⟨pkey, windowSize, own, tree, place, there, cleared, rfl⟩
  · rw [same, reached]
  by_cases above : target <+: pkey
  · obtain ⟨other, slot, ⟨rest, below⟩, apart, held⟩ := beside pkey windowSize place above
    have entry := (rep.detach block _ done).stored other slot
    have stays : (map.remove block).entry other slot = map.entry other slot := by
      rw [remove, place]
      change (if other = pkey ∧ slot = windowSize then none else map.entry other slot) = _
      rw [if_neg]
      rintro ⟨rfl, rfl⟩
      exact apart rfl
    obtain ⟨val, present⟩ := Option.isSome_iff_exists.mp held
    rw [stays, present] at entry
    obtain ⟨deep, arrives, _⟩ := Option.bind_eq_some_iff.mp entry
    rw [← below] at arrives
    obtain ⟨mid, passes⟩ := walk_prefix arrives
    have older := clear_value_older rep.rooted cleared target mid passes
    rw [reached] at older
    rw [passes, older]
  · exact clear_value_kept rep.rooted cleared there target node reached above

end

theorem attach (windowSize : Int) (block : Nat) (next : BlockTree)
    (beside : map.AttachesBeside (.attach pkey windowSize block)) (done : s.attachAt pkey windowSize block = some next) :
    Represents next (map.move pkey windowSize block) := by
  unfold BlockTree.attachAt at done
  dsimp only at done
  split at done
  · next last =>
    cases done
    rw [move, if_pos (rep.no_nodes pkey last)]
    exact rep.with_nodes pkey
  next node last =>
  obtain ⟨nonempty, reached⟩ := rep.last_node pkey node last
  have inserted := rep.with_nodes pkey
  unfold BlockTree.attachToLookupNode at done
  split at done
  · cases done
  next detached removed =>
  have after := inserted.detach block detached removed
  have stays := inserted.detach_keeps block detached removed pkey windowSize beside node reached
  split at done
  · cases done
  next tree set =>
  cases done
  rw [move, if_neg nonempty]
  have vacant : (map.remove block).entry pkey windowSize = none := by
    rw [← after.value_at pkey node stays]
    exact (set_value_vacant set).1
  refine ⟨set_value_rooted set after.rooted, ?_, ?_, ?_, ?_⟩
  · intro path window
    rw [set_value_stored set after.rooted stays, after.stored]
    rfl
  · intro window
    change (if [] = pkey ∧ window = windowSize then _ else (map.remove block).entry [] window) = none
    rw [if_neg fun both => nonempty both.1.symm, after.bare_root]
  · intro other path window place
    change update map.place block _ other = _ at place
    by_cases same : other = block
    · rw [same, update_self] at place
      cases place
      refine ⟨?_, node, ?_, ?_⟩
      · change (if pkey = pkey ∧ windowSize = windowSize then _ else _) = _
        rw [if_pos ⟨rfl, rfl⟩, same]
      · change update detached.lookupNode block _ other = _
        rw [same, update_self]
      · rw [set_value_walk set, stays]
    rw [update_of_ne same] at place
    have elsewhere : (map.remove block).place other = some (path, window) := by rw [place_remove, if_neg same, place]
    obtain ⟨entry, other_node, handle, there⟩ := after.placed other path window elsewhere
    refine ⟨?_, other_node, ?_, ?_⟩
    · change (if path = pkey ∧ window = windowSize then _ else (map.remove block).entry path window) = _
      rw [if_neg, entry]
      rintro ⟨rfl, rfl⟩
      rw [vacant] at entry
      cases entry
    · change update detached.lookupNode block _ other = _
      rw [update_of_ne same, handle]
    · rw [set_value_walk set, there]
  · intro other free
    change update map.place block _ other = _ at free
    by_cases same : other = block
    · rw [same, update_self] at free
      cases free
    rw [update_of_ne same] at free
    change update detached.lookupNode block _ other = _
    rw [update_of_ne same]
    apply after.loose
    rw [place_remove, if_neg same, free]

theorem call (step : TreeCall) (next : BlockTree) (beside : map.AttachesBeside step) (done : s.call step = some next) :
    Represents next (map.call step) := by
  cases step with
  | insertBlock pkey windowSize block =>
    cases done
    exact rep.insert_block pkey windowSize block
  | insertBlocks pkey windowSize blocks =>
    obtain ⟨tree, inserted, rfl⟩ := Option.map_eq_some_iff.mp done
    exact rep.insert_blocks pkey windowSize blocks tree inserted
  | attach pkey windowSize block => exact rep.attach pkey windowSize block next beside done
  | detach block => exact rep.detach block next done

omit rep in
theorem initial : Represents BlockTree.empty empty where
  rooted := rooted_empty
  stored := by
    intro pkey windowSize
    cases pkey with
    | nil => rfl
    | cons key rest => rfl
  bare_root := fun _ => rfl
  placed := fun _ _ _ place => by cases place
  loose := fun _ _ => rfl

end Represents
end TrtLlm.Kv
