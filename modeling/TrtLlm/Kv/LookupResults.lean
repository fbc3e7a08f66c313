import TrtLlm.Kv.LookupRefinement

set_option autoImplicit false

namespace TrtLlm.Kv
open List Lib Trie LookupTree

theorem full_of_loaded {tree : LookupTree} {node : Nat} (full : tree.FullBut fun child => child = node)
    (loaded : ¬tree.Bare node) : tree.Full := by
  intro at_ key child found _
  by_cases same : child = node
  · rw [same]
    exact loaded
  · exact full at_ key child found same

theorem full_but_of_full (tree : LookupTree) (spared : Nat → Prop) (full : tree.Full) : tree.FullBut spared :=
  fun at_ key child found _ => full at_ key child found not_false

theorem place_blocks_full (windowSize : Int) (blocks : List (Option Nat)) : ∀ (nodes : List Nat) (tree : LookupTree) (last : Nat),
    nodes.length = blocks.length → (∀ node ∈ nodes, node < tree.nodes.length) → nodes.getLast? = some last →
    (∀ entry, blocks.getLast? = some entry → entry.isSome = true) → (tree.FullBut fun child => child = last) →
    Full (placeBlocks windowSize (nodes.zip blocks) tree) := by
  induction blocks with
  | nil =>
    intro nodes tree last count _ ends _ _
    rw [eq_nil_of_length_eq_zero count] at ends
    cases ends
  | cons block rest ih =>
    intro nodes tree last count inside ends filled full
    cases nodes with
    | nil => cases count
    | cons node others =>
      cases rest with
      | nil =>
        have single : others = [] := eq_nil_of_length_eq_zero (Nat.succ.inj count)
        subst single
        cases ends
        obtain ⟨val, rfl⟩ := Option.isSome_iff_exists.mp (filled block rfl)
        have set := try_set_full tree node windowSize val _ (inside node mem_cons_self) full
        exact full_of_loaded set.1 set.2
      | cons second later =>
        have ends_later : others.getLast? = some last := by
          cases others with
          | nil => cases count
          | cons following more => rw [← ends, getLast?_cons_cons]
        have filled_later : ∀ entry, (second :: later).getLast? = some entry → entry.isSome = true := by
          intro entry final
          exact filled entry (by rw [getLast?_cons_cons, final])
        cases block with
        | none =>
          exact ih others tree last (Nat.succ.inj count) (forall_mem_cons.mp inside).2
            ends_later filled_later full
        | some val =>
          refine ih others _ last (Nat.succ.inj count) ?_ ends_later filled_later
            (try_set_full tree node windowSize val _ (inside node mem_cons_self) full).1
          intro other mem
          rw [try_set_length]
          exact inside other (mem_cons_of_mem _ mem)

namespace Represents
variable {s : BlockTree} {map : BlockMap} (rep : Represents s map) (full : s.tree.Full)

include rep full

variable (pkey : List BlockKey)

include pkey

theorem nodes_full (node : Nat) (last : (s.tree.insertNodes pkey).2.getLast? = some node) :
    (FullBut (s.tree.insertNodes pkey).1 fun child => child = node) ∧ node < (s.tree.insertNodes pkey).1.nodes.length := by
  have grown := insert_grown pkey rep.rooted
  refine ⟨?_, ?_⟩
  · have spared := grown.full (full_but_of_full s.tree _ full)
    rw [getLastD_eq_getLast?, last] at spared
    exact spared
  · rw [getLast?_eq_getElem?] at last
    exact walk_inside grown.rooted (grown.placed _ node last)

theorem insert_block_full (windowSize : Int) (block : Nat) : Full (insertBlock s.tree pkey windowSize block) := by
  unfold insertBlock
  dsimp only
  cases last : (s.tree.insertNodes pkey).2.getLast? with
  | none =>
    rw [rep.no_nodes pkey last]
    exact full
  | some node =>
    obtain ⟨spared, inside⟩ := rep.nodes_full full pkey node last
    have set := try_set_full _ node windowSize block _ inside spared
    exact full_of_loaded set.1 set.2

theorem insert_blocks_full (windowSize : Int) (blocks : List (Option Nat)) (tree : LookupTree)
    (filled : ∀ last, blocks.getLast? = some last → last.isSome = true)
    (done : insertBlocks s.tree pkey windowSize blocks = some tree) : tree.Full := by
  unfold insertBlocks at done
  split at done
  · rename_i count
    cases done
    have grown := insert_grown pkey rep.rooted
    cases last : (s.tree.insertNodes pkey).2.getLast? with
    | none =>
      rw [rep.no_nodes pkey last]
      exact full
    | some node =>
      refine place_blocks_full windowSize blocks _ _ node (grown.count.trans count.symm) ?_ last filled
        (rep.nodes_full full pkey node last).1
      intro other mem
      obtain ⟨idx, found⟩ := getElem?_of_mem mem
      exact walk_inside grown.rooted (grown.placed idx other found)
  · cases done

theorem attach_full (windowSize : Int) (block : Nat) (next : BlockTree)
    (beside : map.AttachesBeside (.attach pkey windowSize block)) (done : s.attachAt pkey windowSize block = some next) :
    next.tree.Full := by
  unfold BlockTree.attachAt at done
  dsimp only at done
  split at done
  · next last =>
    cases done
    rw [rep.no_nodes pkey last]
    exact full
  next node last =>
  obtain ⟨spared, inside⟩ := rep.nodes_full full pkey node last
  have inserted := rep.with_nodes pkey
  have reached := (rep.last_node pkey node last).2
  unfold BlockTree.attachToLookupNode at done
  split at done
  · cases done
  next detached removed =>
  have after := inserted.detach block detached removed
  have stays := inserted.detach_keeps block detached removed _ windowSize beside node reached
  have kept : detached.tree.FullBut fun child => child = node := by
    rcases inserted.detach_cases block detached removed with ⟨_, same⟩ | ⟨_, slot, own, _, _, there, cleared, rfl⟩
    · rw [same]
      exact spared
    · exact clear_value_full inserted.rooted cleared _ spared (walk_inside inserted.rooted there)
  split at done
  · cases done
  next tree set =>
  cases done
  have loaded := set_value_full set _ kept (walk_inside after.rooted stays)
  exact full_of_loaded loaded.1 loaded.2

omit pkey

theorem call_full (step : TreeCall) (next : BlockTree) (beside : map.AttachesBeside step) (ends : step.EndsInBlock)
    (done : s.call step = some next) : next.tree.Full := by
  cases step with
  | insertBlock pkey windowSize block =>
    cases done
    exact rep.insert_block_full full pkey windowSize block
  | insertBlocks pkey windowSize blocks =>
    obtain ⟨tree, inserted, rfl⟩ := Option.map_eq_some_iff.mp done
    exact rep.insert_blocks_full full pkey windowSize blocks tree ends inserted
  | attach pkey windowSize block => exact rep.attach_full full pkey windowSize block next beside done
  | detach block =>
    rcases rep.detach_cases block next done with ⟨_, same⟩ | ⟨pkey, windowSize, node, _, _, reached, cleared, rfl⟩
    · rw [same]
      exact full
    · exact clear_value_full rep.rooted cleared _ full (walk_inside rep.rooted reached)

omit rep full in
theorem calls (steps : List TreeCall) : ∀ (s next : BlockTree) (map : BlockMap), Represents s map → map.AllBeside steps →
    s.calls steps = some next → Represents next (map.calls steps) ∧
      (s.tree.Full → (∀ step ∈ steps, step.EndsInBlock) → next.tree.Full) := by
  induction steps with
  | nil =>
    intro s next map rep _ done
    cases done
    exact ⟨rep, fun full _ => full⟩
  | cons step rest ih =>
    intro s next map rep beside done
    obtain ⟨mid, first, later⟩ := Option.bind_eq_some_iff.mp done
    obtain ⟨stands, filled⟩ := ih mid next (map.call step) (rep.call step mid beside.1 first) beside.2 later
    refine ⟨stands, fun full ends => filled ?_ (forall_mem_cons.mp ends).2⟩
    exact rep.call_full full step mid beside.1 (ends step mem_cons_self) first

end Represents

section Nodes
variable (order : MatchOrder) (tree : LookupTree) (windowSize : Int)

theorem exact_values (allow : Bool) (keys : List BlockKey) : ∀ prev,
    let found := (lookupNodesFrom order tree allow prev keys).exactMatches.map
      fun entry => tree.getValue entry.node windowSize
    found ++ replicate (keys.length - found.length) none = (range keys.length).map fun idx =>
      (tree.walk prev (keys.take (idx + 1))).bind fun node => tree.getValue node windowSize := by
  induction keys with
  | nil => exact fun _ => rfl
  | cons key rest ih =>
    intro prev
    rw [length_cons, range_succ_eq_map, lookupNodesFrom]
    cases found : tree.findMatchingNode prev key with
    | none =>
      have missing : ∀ idx : Nat, tree.walk prev ((key :: rest).take (idx + 1)) = none := by
        intro idx
        rw [take_succ_cons, walk_cons, found]
        rfl
      dsimp only
      rw [map_nil, nil_append, length_nil, Nat.sub_zero, map_cons, map_map, missing, replicate_succ]
      congr 1
      symm
      rw [eq_replicate_iff, length_map, length_range]
      refine ⟨rfl, fun val mem => ?_⟩
      obtain ⟨idx, _, rfl⟩ := mem_map.mp mem
      change (tree.walk prev ((key :: rest).take (idx + 1 + 1))).bind _ = none
      rw [missing]
      rfl
    | some child =>
      dsimp only
      have later := ih child
      rw [map_cons, cons_append, length_cons, Nat.add_sub_add_right, later, map_cons, map_map]
      congr 1
      · rw [take_succ_cons, walk_cons, found]
        rfl
      apply map_congr_left
      intro idx _
      change _ = (tree.walk prev ((key :: rest).take (idx + 1 + 1))).bind _
      rw [take_succ_cons, walk_cons, found]
      rfl

theorem exact_only (keys : List BlockKey) : ∀ prev, (lookupNodesFrom order tree false prev keys).partialMatches = [] := by
  induction keys with
  | nil => exact fun _ => rfl
  | cons key rest ih =>
    intro prev
    rw [lookupNodesFrom]
    cases tree.findMatchingNode prev key with
    | none => rfl
    | some child => exact ih child

theorem partial_cases (keys : List BlockKey) : ∀ prev, ((∃ target, tree.walk prev keys = some target) ∧
        (lookupNodesFrom order tree true prev keys).partialMatches = []) ∨
      ∃ before key rest target, keys = before ++ key :: rest ∧ tree.walk prev before = some target ∧
        tree.findMatchingNode target key = none ∧ (lookupNodesFrom order tree true prev keys).partialMatches =
          findPartiallyMatchingNodes order tree target key := by
  induction keys with
  | nil => exact fun prev => .inl ⟨⟨prev, rfl⟩, rfl⟩
  | cons key rest ih =>
    intro prev
    rw [lookupNodesFrom]
    cases found : tree.findMatchingNode prev key with
    | none => exact .inr ⟨[], key, rest, prev, rfl, rfl, found, rfl⟩
    | some child =>
      rcases ih child with ⟨⟨target, reached⟩, none_left⟩ | ⟨before, last, others, target, split, reached, missing, left⟩
      · refine .inl ⟨⟨target, ?_⟩, none_left⟩
        rw [walk_cons, found]
        exact reached
      · refine .inr ⟨key :: before, last, others, target, by rw [split, cons_append], ?_, missing, left⟩
        rw [walk_cons, found]
        exact reached

end Nodes

namespace Represents
variable {s : BlockTree} {map : BlockMap} (rep : Represents s map) (order : MatchOrder)

include rep

theorem walked_values (allow : Bool) (pkey : List BlockKey) (windowSize : Int) :
    let found := (lookupNodesFrom order s.tree allow 0 pkey).exactMatches.map
      fun entry => s.tree.getValue entry.node windowSize
    found ++ replicate (pkey.length - found.length) none =
      (range pkey.length).map fun idx => map.entry (pkey.take (idx + 1)) windowSize := by
  have values := exact_values order s.tree windowSize allow pkey 0
  dsimp only at values ⊢
  rw [values]
  apply map_congr_left
  intro idx _
  exact rep.stored (pkey.take (idx + 1)) windowSize

theorem exact_lookup (pkey : List BlockKey) (windowSize : Int) (nonempty : pkey ≠ []) :
    lookupBlock order s.tree pkey windowSize false = some (map.entry pkey windowSize) := by
  have pos := length_pos_of_ne_nil nonempty
  have values := rep.walked_values order false pkey windowSize
  have last := congrArg getLast? values
  have final : ((range pkey.length).map fun idx => map.entry (pkey.take (idx + 1)) windowSize).getLast? =
      some (map.entry pkey windowSize) := by
    rw [getLast?_eq_getElem?, length_map, length_range, getElem?_map,
      getElem?_range (by omega), Option.map_some, Nat.sub_add_cancel pos, take_length]
  rw [final] at last
  unfold lookupBlock lookupValues lookupNodes
  rw [exact_only, map_nil, find?_nil, Option.toList_none, append_nil, Bool.not_false, if_pos rfl, length_map]
  rw [length_map] at last
  by_cases whole : (lookupNodesFrom order s.tree false 0 pkey).exactMatches.length = pkey.length
  · rw [if_neg (not_not_intro whole), ← getLast?_map, map_map]
    rw [whole, Nat.sub_self, replicate_zero, append_nil] at last
    exact last
  rw [if_pos whole]
  have fewer : (lookupNodesFrom order s.tree false 0 pkey).exactMatches.length ≤ pkey.length := by
    have lengths := congrArg length values
    rw [length_append, length_replicate, length_map, length_map, length_range] at lengths
    omega
  obtain ⟨short, gap⟩ : ∃ short, pkey.length - (lookupNodesFrom order s.tree false 0 pkey).exactMatches.length =
      short + 1 := Nat.exists_eq_succ_of_ne_zero (by omega)
  rw [gap, replicate_succ', ← append_assoc, getLast?_concat] at last
  rw [Option.some.inj last]

theorem walk_of_known (pkey : List BlockKey) (known : pkey = [] ∨ map.Known pkey) : ∃ node, s.tree.walk 0 pkey = some node := by
  rcases known with rfl | ⟨rest, windowSize, held⟩
  · exact ⟨0, rfl⟩
  obtain ⟨block, present⟩ := Option.isSome_iff_exists.mp held
  rw [← rep.stored] at present
  obtain ⟨deep, reached, _⟩ := Option.bind_eq_some_iff.mp present
  obtain ⟨node, first⟩ := walk_prefix reached
  exact ⟨node, first⟩

theorem known_of_walk (full : s.tree.Full) (pkey : List BlockKey) (node : Nat) (nonempty : pkey ≠ [])
    (reached : s.tree.walk 0 pkey = some node) : map.Known pkey := by
  obtain ⟨rest, windowSize, held⟩ := value_below s.tree rep.rooted full _ pkey node le_rfl nonempty reached
  rw [rep.stored] at held
  exact ⟨rest, windowSize, held⟩

-- Only the key the walk stops at can leave the map.
theorem leaves_iff (full : s.tree.Full) (pkey before : List BlockKey) (key : BlockKey) (target : Nat)
    (inside : before ++ [key] <+: pkey) (reached : s.tree.walk 0 before = some target)
    (missing : s.tree.findMatchingNode target key = none) (other : List BlockKey) (name : BlockKey) :
    map.Leaves pkey other name ↔ other = before ∧ name = key := by
  have stops : ∀ longer, before ++ [key] <+: longer → s.tree.walk 0 longer = none := by
    rintro longer ⟨rest, rfl⟩
    rw [walk_append, walk_append, reached, Option.bind_some, walk_cons, missing]
    rfl
  constructor
  · rintro ⟨within, known, unknown⟩
    obtain ⟨node, arrives⟩ := rep.walk_of_known other known
    have lost : ∀ longer, other ++ [name] <+: longer → s.tree.walk 0 longer = none := by
      rintro longer ⟨rest, rfl⟩
      cases there : s.tree.walk 0 (other ++ [name] ++ rest) with
      | none => rfl
      | some deep =>
        obtain ⟨mid, first⟩ := walk_prefix there
        exact absurd (rep.known_of_walk full (other ++ [name]) mid (by simp) first) unknown
    have no_shorter : ¬other.length < before.length := by
      intro shorter
      have below : other ++ [name] <+: before := by
        apply prefix_of_prefix_length_le within ((prefix_append before [key]).trans inside)
        rw [length_append, length_singleton]
        exact shorter
      rw [lost before below] at reached
      cases reached
    have no_longer : ¬before.length < other.length := by
      intro longer
      have below : before ++ [key] <+: other := by
        apply prefix_of_prefix_length_le inside ((prefix_append other [name]).trans within)
        rw [length_append, length_singleton]
        exact longer
      rw [stops other below] at arrives
      cases arrives
    have equal : other ++ [name] = before ++ [key] := by
      apply (prefix_of_prefix_length_le within inside _).eq_of_length
      · simp only [length_append, length_singleton]
        omega
      · simp only [length_append, length_singleton]
        omega
    obtain ⟨same, called⟩ := append_inj' equal rfl
    exact ⟨same, (cons.inj called).1⟩
  · rintro ⟨rfl, rfl⟩
    refine ⟨inside, ?_, ?_⟩
    · by_cases short : other = []
      · exact .inl short
      · exact .inr (rep.known_of_walk full other target short reached)
    · intro known
      obtain ⟨node, arrives⟩ := rep.walk_of_known (other ++ [name]) (.inr known)
      rw [stops _ (prefix_refl _)] at arrives
      cases arrives

theorem child_of_entry (before : List BlockKey) (other : BlockKey) (target : Nat) (windowSize : Int)
    (reached : s.tree.walk 0 before = some target) (held : (map.entry (before ++ [other]) windowSize).isSome = true) :
    ∃ child, (other, child) ∈ (s.tree.node target).next ∧
      s.tree.getValue child windowSize = map.entry (before ++ [other]) windowSize := by
  obtain ⟨block, present⟩ := Option.isSome_iff_exists.mp held
  have found := present
  rw [← rep.stored] at found
  obtain ⟨child, arrives, _⟩ := Option.bind_eq_some_iff.mp found
  obtain ⟨mid, first, edge⟩ := (walk_snoc 0 child before other).mp arrives
  rw [reached] at first
  cases first
  exact ⟨child, Table.mem_of_find child edge, rep.value_at (before ++ [other]) child arrives windowSize⟩

theorem closest_child (full : s.tree.Full) (pkey before : List BlockKey) (key : BlockKey) (target : Nat) (windowSize : Int)
    (inside : before ++ [key] <+: pkey) (reached : s.tree.walk 0 before = some target)
    (missing : s.tree.findMatchingNode target key = none) :
    map.Closest pkey windowSize ((findPartiallyMatchingNodes order s.tree target key).findSome?
      fun entry => s.tree.getValue entry.node windowSize) := by
  have leaves := rep.leaves_iff full pkey before key target inside reached missing
  rw [findPartiallyMatchingNodes]
  split
  · next allowed =>
    rw [findSome?_map]
    generalize shares : (((s.tree.node target).next.map fun edge => (key.numMatchingTokens edge.1, edge.2)).filter
      fun found => decide (0 < found.1)) = sharing
    have same_node : ((fun entry : NodeMatch => s.tree.getValue entry.node windowSize) ∘ fun found : Nat × Nat =>
        if found.1 = key.getNumTokens then (⟨key, found.2, true⟩ : NodeMatch) else ⟨key.shorten found.1, found.2, false⟩) =
        fun found => s.tree.getValue found.2 windowSize := by
      funext found
      dsimp only [Function.comp]
      split <;> rfl
    rw [same_node]
    have listed : ∀ other, (map.entry (before ++ [other]) windowSize).isSome = true → 0 < key.numMatchingTokens other →
        ∃ child, (key.numMatchingTokens other, child) ∈ order.sort sharing ∧
          s.tree.getValue child windowSize = map.entry (before ++ [other]) windowSize := by
      intro other held pos
      obtain ⟨child, edge, val⟩ := rep.child_of_entry before other target windowSize reached held
      refine ⟨child, (order.perm sharing).mem_iff.mpr ?_, val⟩
      rw [← shares, mem_filter]
      exact ⟨mem_map.mpr ⟨(other, child), edge, rfl⟩, decide_eq_true pos⟩
    cases res : (order.sort sharing).findSome? fun found => s.tree.getValue found.2 windowSize with
    | none =>
      intro other name left _ sibling held
      obtain ⟨rfl, rfl⟩ := (leaves other name).mp left
      by_contra pos
      obtain ⟨child, mem, val⟩ := listed sibling held (Nat.pos_of_ne_zero pos)
      rw [findSome?_eq_none_iff.mp res _ mem] at val
      rw [← val] at held
      cases held
    | some block =>
      obtain ⟨front, chosen, back, split, val, skipped⟩ := findSome?_eq_some_iff.mp res
      have mem : chosen ∈ sharing := (order.perm sharing).mem_iff.mp (by rw [split]; exact mem_append_right _ mem_cons_self)
      rw [← shares, mem_filter] at mem
      obtain ⟨⟨own, child⟩, edge, rfl⟩ := mem_map.mp mem.1
      refine ⟨before, key, own, (leaves before key).mpr ⟨rfl, rfl⟩, allowed, ?_, of_decide_eq_true mem.2, ?_⟩
      · have found := Table.find_of_mem child (rep.rooted.distinct target) edge
        have arrives := (walk_snoc 0 child before own).mpr ⟨target, reached, found⟩
        rw [← rep.value_at (before ++ [own]) child arrives windowSize]
        exact val
      intro other held
      by_cases pos : 0 < key.numMatchingTokens other
      · obtain ⟨sibling, place, known⟩ := listed other held pos
        have sorted := order.sorted sharing
        rw [split] at place sorted
        rcases mem_append.mp place with early | late
        · rw [skipped _ early] at known
          rw [← known] at held
          cases held
        · rcases mem_cons.mp late with same | later
          · exact le_of_eq (congrArg Prod.fst same)
          · exact (pairwise_cons.mp (pairwise_append.mp sorted).2.1).1 _ later
      · omega
  · next allowed =>
    intro other name left supported
    obtain ⟨rfl, rfl⟩ := (leaves other name).mp left
    exact absurd supported allowed

theorem closest_found (full : s.tree.Full) (pkey : List BlockKey) (windowSize : Int) :
    map.Closest pkey windowSize ((lookupNodesFrom order s.tree true 0 pkey).partialMatches.findSome?
      fun entry => s.tree.getValue entry.node windowSize) := by
  rcases partial_cases order s.tree pkey 0 with ⟨⟨target, reached⟩, none_left⟩ | ⟨before, key, rest, target, split, reached, missing, left⟩
  · rw [none_left]
    rintro before key ⟨⟨rest, split⟩, _, unknown⟩ _ _ _
    rw [← split] at reached
    obtain ⟨mid, first⟩ := walk_prefix reached
    exact absurd (rep.known_of_walk full (before ++ [key]) mid (by simp) first) unknown
  · rw [left]
    refine rep.closest_child order full pkey before key target windowSize ⟨rest, ?_⟩ reached missing
    rw [split, append_assoc, singleton_append]

omit rep in
theorem find_some_replicate (values : List (Option Nat)) (count : Nat) :
    (values ++ replicate count none).reverse.findSome? id = values.reverse.findSome? id := by
  rw [reverse_append, reverse_replicate, findSome?_append]
  have nothing : (replicate count (none : Option Nat)).findSome? id = none := by
    rw [findSome?_eq_none_iff]
    intro entry mem
    exact eq_of_mem_replicate mem
  rw [nothing, Option.none_or]

theorem partial_lookup (full : s.tree.Full) (pkey : List BlockKey) (windowSize : Int) :
    ∃ found, map.Closest pkey windowSize found ∧
      lookupBlock order s.tree pkey windowSize true = some (found.or (map.deepest pkey windowSize)) := by
  refine ⟨_, rep.closest_found order full pkey windowSize, ?_⟩
  have values := rep.walked_values order true pkey windowSize
  unfold lookupBlock lookupValues lookupNodes BlockMap.deepest
  rw [← values, find_some_replicate, Bool.not_true, if_neg Bool.false_ne_true, reverse_append, findSome?_append]
  congr 2
  · generalize (lookupNodesFrom order s.tree true 0 pkey).partialMatches = left
    induction left with
    | nil => rfl
    | cons entry rest ih =>
      rw [map_cons, find?_cons, findSome?_cons]
      cases val : s.tree.getValue entry.node windowSize with
      | none =>
        have absent : (valueMatch s.tree windowSize entry).value = none := val
        rw [absent]
        exact ih
      | some block =>
        have present : (valueMatch s.tree windowSize entry).value = some block := val
        rw [present]
        change findSome? _ [_] = _
        rw [findSome?_singleton, present]
  · rw [← map_reverse, ← map_reverse, findSome?_map, findSome?_map]
    rfl

end Represents

theorem lookup_tree_refines_map (order : MatchOrder) (steps : List TreeCall) (s : BlockTree)
    (beside : BlockMap.empty.AllBeside steps) (done : BlockTree.empty.calls steps = some s) :
    (∀ pkey windowSize, pkey ≠ [] → LookupTree.lookupBlock order s.tree pkey windowSize false =
      some ((BlockMap.empty.calls steps).entry pkey windowSize)) ∧
    (∀ pkey windowSize, LookupTree.lookupBlocksAtAllPositions order s.tree pkey windowSize =
      (List.range pkey.length).map fun index => (BlockMap.empty.calls steps).entry (pkey.take (index + 1)) windowSize) ∧
    ((∀ step ∈ steps, step.EndsInBlock) → (∀ pkey node, pkey ≠ [] → s.tree.walk 0 pkey = some node → ¬s.tree.Bare node) ∧
      ∀ pkey windowSize, ∃ found, (BlockMap.empty.calls steps).Closest pkey windowSize found ∧
        LookupTree.lookupBlock order s.tree pkey windowSize true =
          some (found.or ((BlockMap.empty.calls steps).deepest pkey windowSize))) := by
  obtain ⟨rep, filled⟩ := Represents.calls steps BlockTree.empty s BlockMap.empty Represents.initial beside done
  refine ⟨rep.exact_lookup order, fun pkey windowSize => ?_, fun ends => ?_⟩
  · have values := rep.walked_values order false pkey windowSize
    unfold lookupBlocksAtAllPositions lookupValues lookupNodes
    rw [exact_only, map_nil, find?_nil, Option.toList_none, append_nil, map_map]
    exact values
  have full := filled full_empty ends
  refine ⟨fun pkey node nonempty reached => ?_, rep.partial_lookup order full⟩
  obtain ⟨before, last, rfl⟩ := (eq_nil_or_concat' pkey).resolve_left nonempty
  obtain ⟨parent, _, edge⟩ := (walk_snoc 0 node before last).mp reached
  exact full parent last node edge not_false

def tokenKey (token : Nat) : BlockKey := ⟨false, none, [⟨token, 0⟩], [], none⟩

def sharedPath : List TreeCall :=
  [.insertBlock [tokenKey 1] 8 10, .insertBlocks [tokenKey 1, tokenKey 2] (-1) [none, some 20],
    .attach [tokenKey 1, tokenKey 3] 8 30, .attach [tokenKey 1, tokenKey 4] 8 30]

theorem shared_path_refines : ∃ s, BlockTree.empty.calls sharedPath = some s ∧
    LookupTree.lookupBlock longestFirst s.tree [tokenKey 1, tokenKey 2] (-1) false = some (some 20) ∧
    LookupTree.lookupBlock longestFirst s.tree [tokenKey 1, tokenKey 3] 8 false = some none ∧
    LookupTree.lookupBlock longestFirst s.tree [tokenKey 1, tokenKey 4] 8 false = some (some 30) := by
  have beside : BlockMap.empty.AllBeside sharedPath := by
    refine ⟨trivial, trivial, ?_, ?_, trivial⟩
    · intro path window place
      cases place
    · intro path window place above
      cases place
      exact absurd above (by decide)
  refine ⟨_, rfl, ?_, ?_, ?_⟩
  · exact (lookup_tree_refines_map longestFirst sharedPath _ beside rfl).1 [tokenKey 1, tokenKey 2] (-1) (by simp)
  · exact (lookup_tree_refines_map longestFirst sharedPath _ beside rfl).1 [tokenKey 1, tokenKey 3] 8 (by simp)
  · exact (lookup_tree_refines_map longestFirst sharedPath _ beside rfl).1 [tokenKey 1, tokenKey 4] 8 (by simp)

-- A placeholder ending a prefix leaves a node that carries nothing; a block that moves to the node above is lost
-- with its own.
theorem lookup_tree_loses_block : (∃ s, BlockTree.empty.calls [.insertBlocks [tokenKey 1] 8 [none]] = some s ∧
      s.tree.walk 0 [tokenKey 1] = some 1 ∧ s.tree.Bare 1) ∧
    ∃ s, BlockTree.empty.calls [.attach [tokenKey 1, tokenKey 2] 8 30, .attach [tokenKey 1] 8 30] = some s ∧
      (BlockMap.empty.calls [.attach [tokenKey 1, tokenKey 2] 8 30, .attach [tokenKey 1] 8 30]).entry [tokenKey 1] 8 = some 30 ∧
      ∀ order, LookupTree.lookupBlock order s.tree [tokenKey 1] 8 false = some none := by
  refine ⟨⟨_, rfl, rfl, rfl, rfl⟩, _, rfl, rfl, fun order => rfl⟩

end TrtLlm.Kv
