import TrtLlm.Lib.Trie

set_option autoImplicit false

namespace TrtLlm.Lib
namespace Trie
variable {Key Channel Value : Type} [DecidableEq Key]

-- A node with a parent is its parent's child under its key, so cutting it off cuts no other edge.
structure Linked (trie : Trie Key Channel Value) : Prop where
  rooted : 0 < trie.nodes.length
  back : ∀ at_ parent own, (trie.node at_).prev = some parent → (trie.node at_).key = some own →
    trie.findMatchingNode parent own = some at_

section Cut
variable (trie : Trie Key Channel Value) (at_ child : Nat) (key : Key)

def cut : Trie Key Channel Value :=
  (trie.modify child fun node => { node with prev := none }).modify at_ fun node => { node with next := node.next.clear key }

variable {trie at_ child key}

theorem cut_node (other : Nat) : let node := (trie.cut at_ child key).node other
    node.prev = (if other = child then none else (trie.node other).prev) ∧ node.key = (trie.node other).key ∧
      node.values = (trie.node other).values ∧
      node.next = (if other = at_ then (trie.node other).next.clear key else (trie.node other).next) := by
  by_cases inside : other < trie.nodes.length
  · unfold cut
    by_cases here : other = at_
    · subst here
      rw [node_modify_here (by simpa using inside)]
      by_cases same : other = child
      · subst same
        rw [node_modify_here inside]
        simp
      · rw [node_modify_other same]
        simp [same]
    · rw [node_modify_other here]
      by_cases same : other = child
      · subst same
        rw [node_modify_here inside]
        simp [here]
      · rw [node_modify_other same]
        simp [here, same]
  · have outside : trie.nodes.length ≤ other := Nat.le_of_not_lt inside
    rw [node_outside trie other outside, node_outside (trie.cut at_ child key) other (by simpa [cut] using outside)]
    simp [blank, Table.clear]

theorem find_cut (other : Nat) (name : Key) : (trie.cut at_ child key).findMatchingNode other name =
      if other = at_ ∧ name = key then none else trie.findMatchingNode other name := by
  unfold findMatchingNode
  rw [(cut_node other).2.2.2]
  split
  · next here =>
    rw [Table.find_clear]
    split
    · next same =>
      rw [if_pos ⟨here, same⟩]
    · next same =>
      rw [if_neg fun both => same both.2]
  · next here =>
    rw [if_neg fun both => here both.1]

theorem linked_cut (linked : trie.Linked) (found : trie.findMatchingNode at_ key = some child) :
    (trie.cut at_ child key).Linked where
  rooted := by simpa [cut] using linked.rooted
  back := by
    intro other parent own up named
    rw [(cut_node other).1] at up
    rw [(cut_node other).2.1] at named
    split at up
    · cases up
    next same =>
    have back := linked.back other parent own up named
    rw [find_cut, if_neg, back]
    rintro ⟨rfl, rfl⟩
    rw [found] at back
    exact same (Option.some.inj back).symm

theorem ordered_cut (ordered : trie.Ordered) : (trie.cut at_ child key).Ordered :=
  ordered_modify (fun _ => List.filter_sublist.subset) (ordered_modify (fun _ => List.Subset.refl _) ordered)

end Cut

section Survive
variable {trie : Trie Key Channel Value} {at_ : Nat}

theorem linked_same_shape {change : TrieNode Key Channel Value → TrieNode Key Channel Value}
    (kept : ∀ node, (change node).prev = node.prev ∧ (change node).key = node.key ∧ (change node).next = node.next)
    (linked : trie.Linked) : (trie.modify at_ change).Linked := by
  have fields : ∀ other, ((trie.modify at_ change).node other).prev = (trie.node other).prev ∧
      ((trie.modify at_ change).node other).key = (trie.node other).key ∧
      ((trie.modify at_ change).node other).next = (trie.node other).next := by
    intro other
    rcases node_modify_cases with same | ⟨_, changed⟩
    · rw [same]
      exact ⟨rfl, rfl, rfl⟩
    · rw [changed]
      exact kept _
  refine ⟨by simpa using linked.rooted, fun other parent own up named => ?_⟩
  rw [(fields other).1] at up
  rw [(fields other).2.1] at named
  have back := linked.back other parent own up named
  rw [findMatchingNode, (fields parent).2.2]
  exact back

variable [DecidableEq Channel] {chan : Channel} {next : Trie Key Channel Value} (ordered : trie.Ordered)
    (linked : trie.Linked)

include ordered linked

theorem clear_value_shape (done : trie.clearValue at_ chan = some next) : next.Ordered ∧ next.Linked := by
  refine clear_value_rule (P := fun trie => trie.Ordered ∧ trie.Linked)
    (fun _ _ _ _ found before => ⟨ordered_cut before.1, linked_cut before.2 found⟩) ⟨?_, ?_⟩ done
  · exact ordered_modify (fun _ => List.Subset.refl _) ordered
  · exact linked_same_shape (fun _ => ⟨rfl, rfl, rfl⟩) linked

theorem set_value_shape {val : Value} (done : trie.setValue at_ chan val = some next) : next.Ordered ∧ next.Linked := by
  unfold setValue at done
  split at done
  · cases done
  cases done
  constructor
  · exact ordered_modify (fun _ => List.Subset.refl _) ordered
  · exact linked_same_shape (fun _ => ⟨rfl, rfl, rfl⟩) linked

end Survive

section Grow
variable {trie : Trie Key Channel Value} {at_ : Nat} {key : Key}

omit [DecidableEq Key] in
theorem add_child_node (other : Nat) (inside : at_ < trie.nodes.length) : (trie.addChild at_ key).node other =
      if other = trie.nodes.length then ⟨some key, some at_, [], []⟩
      else if other = at_ then { trie.node other with next := (trie.node other).next ++ [(key, trie.nodes.length)] }
      else trie.node other := by
  split
  · next last =>
    simp [node, addChild, List.getD, last]
  by_cases old : other < trie.nodes.length
  · have linked : (trie.addChild at_ key).node other =
        (trie.modify at_ fun node => { node with next := node.next ++ [(key, trie.nodes.length)] }).node other := by
      simp [node, addChild, List.getD, List.getElem?_append_left, old]
    rw [linked]
    split
    · next here =>
      rw [here, node_modify_here inside]
    · next here =>
      rw [node_modify_other here]
  · have beyond : trie.nodes.length + 1 ≤ other := by omega
    rw [node_outside (trie.addChild at_ key) other (by simpa [addChild] using beyond), if_neg (by omega),
      node_outside trie other (by omega)]

omit [DecidableEq Key] in
theorem ordered_add_child (ordered : trie.Ordered) (inside : at_ < trie.nodes.length) : (trie.addChild at_ key).Ordered := by
  intro other edge mem
  have longer : (trie.addChild at_ key).nodes.length = trie.nodes.length + 1 := by simp [addChild]
  rw [add_child_node other inside] at mem
  split at mem
  · cases mem
  split at mem
  · rcases List.mem_append.mp mem with known | fresh
    · have bounds := ordered other edge known
      omega
    · rw [List.mem_singleton.mp fresh]
      omega
  · have bounds := ordered other edge mem
    omega

theorem find_append (table : Table Key Nat) (name own : Key) (val : Nat) : Table.find name (table ++ [(own, val)]) =
      (Table.find name table).or (if own = name then some val else none) := by
  induction table with
  | nil => rfl
  | cons entry rest ih =>
    rw [List.cons_append, Table.find_cons, Table.find_cons]
    by_cases here : entry.1 = name
    · rw [if_pos here, if_pos here, Option.some_or]
    · rw [if_neg here, if_neg here, ih]

theorem find_add_child (other : Nat) (name : Key) (inside : at_ < trie.nodes.length) :
    (trie.addChild at_ key).findMatchingNode other name =
      if other = at_ then (trie.findMatchingNode other name).or (if key = name then some trie.nodes.length else none)
      else trie.findMatchingNode other name := by
  unfold findMatchingNode
  rw [add_child_node other inside]
  split
  · rw [if_neg (by omega), node_outside trie other (by omega)]
    rfl
  by_cases here : other = at_
  · rw [if_pos here, if_pos here]
    exact find_append _ name key _
  · rw [if_neg here, if_neg here]

theorem linked_add_child (linked : trie.Linked) (inside : at_ < trie.nodes.length)
    (missing : trie.findMatchingNode at_ key = none) : (trie.addChild at_ key).Linked where
  rooted := by simp [addChild]
  back := by
    intro other parent own up named
    rw [add_child_node other inside] at up named
    rw [find_add_child parent own inside]
    by_cases last : other = trie.nodes.length
    · rw [if_pos last] at up named
      cases up
      cases named
      rw [if_pos rfl, missing, if_pos rfl, last]
      rfl
    rw [if_neg last] at up named
    have back : trie.findMatchingNode parent own = some other := by
      refine linked.back other parent own ?_ ?_
      · split at up <;> exact up
      · split at named <;> exact named
    split
    · rw [back]
      rfl
    · exact back

theorem insert_from_shape (keys : List Key) : ∀ (trie : Trie Key Channel Value) (at_ : Nat), trie.Ordered → trie.Linked →
    at_ < trie.nodes.length → (trie.insertNodesFrom at_ keys).1.Ordered ∧ (trie.insertNodesFrom at_ keys).1.Linked := by
  induction keys with
  | nil => exact fun _ _ ordered linked _ => ⟨ordered, linked⟩
  | cons key rest ih =>
    intro trie at_ ordered linked inside
    unfold insertNodesFrom
    cases found : trie.findMatchingNode at_ key with
    | some child => exact ih trie child ordered linked (child_bounds ordered found).2
    | none =>
      refine ih (trie.addChild at_ key) trie.nodes.length (ordered_add_child ordered inside)
        (linked_add_child linked inside found) ?_
      simp [addChild]

theorem linked_empty : (empty : Trie Key Channel Value).Linked where
  rooted := Nat.one_pos
  back := by
    intro at_ parent own up _
    rw [empty_node] at up
    cases up

end Grow
end Trie
end TrtLlm.Lib
