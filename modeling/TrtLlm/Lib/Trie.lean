import TrtLlm.Lib.Table

set_option autoImplicit false

namespace TrtLlm.Lib

-- One value for each channel. Nodes are named by their place in an arena, so one cut off keeps its identity; the
-- root is node 0.
structure TrieNode (Key Channel Value : Type) where
  key : Option Key
  prev : Option Nat
  next : Table Key Nat
  values : Table Channel Value
deriving DecidableEq, Repr

structure Trie (Key Channel Value : Type) where
  nodes : List (TrieNode Key Channel Value)
deriving DecidableEq, Repr

namespace Trie
variable {Key Channel Value : Type}

def blank : TrieNode Key Channel Value := ⟨none, none, [], []⟩

def empty : Trie Key Channel Value := ⟨[blank]⟩

variable (trie : Trie Key Channel Value)

def node (at_ : Nat) : TrieNode Key Channel Value := trie.nodes.getD at_ blank

def modify (at_ : Nat) (change : TrieNode Key Channel Value → TrieNode Key Channel Value) :
    Trie Key Channel Value := ⟨trie.nodes.modify at_ change⟩

def hasChildren (at_ : Nat) : Bool := !(trie.node at_).next.isEmpty

def prunable (at_ : Nat) : Bool :=
  (trie.node at_).prev.isSome && (trie.node at_).values.isEmpty && (trie.node at_).next.isEmpty

variable [DecidableEq Key] [DecidableEq Channel]
variable (trie : Trie Key Channel Value) (at_ : Nat)

def findMatchingNode (key : Key) : Option Nat :=
  (trie.node at_).next.find key

def getValue (channel : Channel) : Option Value :=
  (trie.node at_).values.find channel

def setValue (channel : Channel) (value : Value) : Option (Trie Key Channel Value) :=
  match trie.getValue at_ channel with
  | some _ => none
  | none => some (trie.modify at_ fun node => { node with values := (channel, value) :: node.values })

-- A node left with nothing is cut off from its parent in turn. The path to the root bounds the rounds.
def clearNode : Nat → Trie Key Channel Value → Nat → Key → Trie Key Channel Value
  | 0, trie, _, _ => trie
  | rounds + 1, trie, at_, key =>
    match trie.findMatchingNode at_ key with
    | none => trie
    | some child =>
      let cut := (trie.modify child fun node => { node with prev := none }).modify at_
        fun node => { node with next := node.next.clear key }
      if cut.prunable at_ then
        match (cut.node at_).prev, (cut.node at_).key with
        | some parent, some own => clearNode rounds cut parent own
        | _, _ => cut
      else cut

def clearValue (channel : Channel) : Option (Trie Key Channel Value) :=
  match trie.getValue at_ channel with
  | none => none
  | some _ =>
    let cleared := trie.modify at_ fun node =>
      { node with values := node.values.clear channel }
    if cleared.prunable at_ then
      match (cleared.node at_).prev, (cleared.node at_).key with
      | some parent, some own => some (clearNode trie.nodes.length cleared parent own)
      | _, _ => some cleared
    else some cleared

def addChild (key : Key) : Trie Key Channel Value :=
  ⟨(trie.modify at_ fun node => { node with next := node.next ++ [(key, trie.nodes.length)] }).nodes ++
    [⟨some key, some at_, [], []⟩]⟩

def insertNodesFrom (trie : Trie Key Channel Value) (at_ : Nat) : List Key → Trie Key Channel Value × List Nat
  | [] => (trie, [])
  | key :: rest =>
    match trie.findMatchingNode at_ key with
    | some child =>
      let inserted := insertNodesFrom trie child rest
      (inserted.1, child :: inserted.2)
    | none =>
      let inserted := insertNodesFrom (trie.addChild at_ key) trie.nodes.length rest
      (inserted.1, trie.nodes.length :: inserted.2)

def insertNodes (trie : Trie Key Channel Value) (keys : List Key) : Trie Key Channel Value × List Nat :=
  trie.insertNodesFrom 0 keys

section Nodes

omit [DecidableEq Key] [DecidableEq Channel]

variable {trie : Trie Key Channel Value} {at_ other : Nat}
  {change : TrieNode Key Channel Value → TrieNode Key Channel Value}

@[simp] theorem length_modify : (trie.modify at_ change).nodes.length = trie.nodes.length :=
  List.length_modify ..

theorem node_modify_here (inside : at_ < trie.nodes.length) : (trie.modify at_ change).node at_ = change (trie.node at_) := by
  simp [node, modify, List.getD, inside]

theorem node_modify_other (ne : other ≠ at_) : (trie.modify at_ change).node other = trie.node other := by
  have apart : ¬at_ = other := fun equal => ne equal.symm
  simp [node, modify, List.getD, apart]

theorem node_outside (trie : Trie Key Channel Value) (at_ : Nat) (outside : trie.nodes.length ≤ at_) : trie.node at_ = blank := by
  simp [node, List.getD, List.getElem?_eq_none outside]

theorem node_modify_cases : (trie.modify at_ change).node other = trie.node other ∨
      (other = at_ ∧ (trie.modify at_ change).node other = change (trie.node other)) := by
  by_cases same : other = at_
  · by_cases inside : at_ < trie.nodes.length
    · exact .inr ⟨same, by rw [same, node_modify_here inside]⟩
    · have outside : trie.nodes.length ≤ other := by omega
      left
      rw [node_outside trie other outside, node_outside _ other (by simpa using outside)]
  · exact .inl (node_modify_other same)

end Nodes

section Clearing
variable {trie : Trie Key Channel Value} {at_ : Nat} {P : Trie Key Channel Value → Prop}
  (cut : ∀ trie at_ child key, findMatchingNode trie at_ key = some child → P trie →
    P ((trie.modify child fun node => { node with prev := none }).modify at_ fun node =>
      { node with next := node.next.clear key }))

include cut

omit [DecidableEq Channel] in
theorem clear_node_rule (rounds : Nat) (key : Key) (before : P trie) : P (clearNode rounds trie at_ key) := by
  induction rounds generalizing trie at_ key with
  | zero => exact before
  | succ rounds ih =>
    unfold clearNode
    cases found : trie.findMatchingNode at_ key with
    | none => exact before
    | some child =>
      have next := cut trie at_ child key found before
      dsimp only
      split
      · split
        · exact ih _ next
        · exact next
      · exact next

-- What every cut keeps, clearing a value and pruning keeps.
theorem clear_value_rule {channel : Channel} {next : Trie Key Channel Value}
    (erased : P (trie.modify at_ fun node => { node with values := node.values.clear channel }))
    (done : trie.clearValue at_ channel = some next) : P next := by
  unfold clearValue at done
  split at done
  · cases done
  dsimp only at done
  split at done
  · split at done
    · cases done
      exact clear_node_rule cut _ _ erased
    · cases done
      exact erased
  · cases done
    exact erased

end Clearing

section Values
variable {trie : Trie Key Channel Value} {at_ : Nat} (other : Nat) (channel : Channel)

omit [DecidableEq Key] in
theorem get_value_modify (change : TrieNode Key Channel Value → TrieNode Key Channel Value)
    (kept : ∀ node, (change node).values = node.values) :
    (trie.modify at_ change).getValue other channel = trie.getValue other channel := by
  rcases node_modify_cases with same | ⟨_, changed⟩
  · rw [getValue, same, getValue]
  · rw [getValue, changed, kept, getValue]

theorem get_value_clear_value {next : Trie Key Channel Value} {cleared : Channel}
    (done : trie.clearValue at_ cleared = some next) : next.getValue other channel =
      if other = at_ ∧ channel = cleared then none else trie.getValue other channel := by
  refine clear_value_rule (P := fun after => after.getValue other channel =
      if other = at_ ∧ channel = cleared then none else trie.getValue other channel)
    (fun trie at_ child key _ before => ?_) ?_ done
  · rw [get_value_modify, get_value_modify]
    · exact before
    · exact fun _ => rfl
    · exact fun _ => rfl
  by_cases same : other = at_
  · by_cases inside : at_ < trie.nodes.length
    · rw [same, getValue, node_modify_here inside, Table.find_clear]
      simp [getValue]
    · have outside : trie.nodes.length ≤ other := by omega
      rw [getValue, node_outside _ other (by simpa using outside), getValue, node_outside trie other outside]
      simp [blank, Table.find]
  · rw [getValue, node_modify_other same]
    simp [same, getValue]

omit [DecidableEq Key] in
theorem get_value_set_value {next : Trie Key Channel Value} {set_ : Channel} {val : Value}
    (done : trie.setValue at_ set_ val = some next) : next.getValue other channel = trie.getValue other channel ∨
      (other = at_ ∧ channel = set_ ∧ next.getValue other channel = some val) := by
  unfold setValue at done
  split at done
  · cases done
  cases done
  rcases node_modify_cases with same | ⟨here, changed⟩
  · exact .inl (by rw [getValue, same, getValue])
  by_cases own : channel = set_
  · exact .inr ⟨here, own, by rw [getValue, changed, Table.find_cons, if_pos own.symm]⟩
  · have apart : ¬set_ = channel := fun equal => own equal.symm
    exact .inl (by rw [getValue, changed, Table.find_cons, if_neg apart, getValue])

omit [DecidableEq Key] in
theorem get_value_add_child (key : Key) : (trie.addChild at_ key).getValue other channel = trie.getValue other channel := by
  have linked : (trie.modify at_ fun node => { node with next := node.next ++ [(key, trie.nodes.length)] }).getValue other channel = _ :=
    get_value_modify other channel _ fun _ => rfl
  rw [← linked]
  by_cases inside : other < trie.nodes.length
  · simp [getValue, addChild, node, List.getD, List.getElem?_append_left, inside]
  have outside : trie.nodes.length ≤ other := by omega
  rw [getValue, getValue, node_outside (trie.modify _ _) other (by simpa using outside)]
  by_cases fresh : other = trie.nodes.length
  · simp [addChild, node, List.getD, fresh, blank]
  · have beyond : trie.nodes.length + 1 ≤ other := by omega
    rw [node_outside (trie.addChild at_ key) other (by simpa [addChild] using beyond)]

theorem get_value_insert_from (keys : List Key) :
    (trie.insertNodesFrom at_ keys).1.getValue other channel = trie.getValue other channel := by
  induction keys generalizing trie at_ with
  | nil => rfl
  | cons key rest ih =>
    unfold insertNodesFrom
    cases trie.findMatchingNode at_ key with
    | some child => exact ih
    | none => exact ih.trans (get_value_add_child other channel key)

theorem get_value_insert (keys : List Key) : (trie.insertNodes keys).1.getValue other channel = trie.getValue other channel :=
  get_value_insert_from other channel keys

end Values

-- A child is younger than its parent, so no walk meets a node twice.
def Ordered (trie : Trie Key Channel Value) : Prop :=
  ∀ at_ edge, edge ∈ (trie.node at_).next → at_ < edge.2 ∧ edge.2 < trie.nodes.length

section Order

omit [DecidableEq Key] [DecidableEq Channel]

variable {trie : Trie Key Channel Value} {at_ : Nat}

theorem empty_node : (empty : Trie Key Channel Value).node at_ = blank := by
  cases at_ with
  | zero => rfl
  | succ above => rfl

theorem ordered_empty : Ordered (empty : Trie Key Channel Value) := by
  intro at_ edge mem
  rw [empty_node] at mem
  cases mem

theorem ordered_modify {change : TrieNode Key Channel Value → TrieNode Key Channel Value}
    (fewer : ∀ node, (change node).next ⊆ node.next) (ordered : trie.Ordered) : (trie.modify at_ change).Ordered := by
  intro other edge mem
  rw [length_modify]
  rcases node_modify_cases with same | ⟨_, changed⟩
  · rw [same] at mem
    exact ordered other edge mem
  · rw [changed] at mem
    exact ordered other edge (fewer _ mem)

variable [DecidableEq Key]

theorem child_bounds {key : Key} {child : Nat} (ordered : trie.Ordered)
    (found : trie.findMatchingNode at_ key = some child) : at_ < child ∧ child < trie.nodes.length :=
  ordered at_ (key, child) (Table.mem_of_find child found)

end Order
end Trie
end TrtLlm.Lib
