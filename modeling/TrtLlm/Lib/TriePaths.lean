import TrtLlm.Lib.TrieLinks

set_option autoImplicit false

namespace TrtLlm.Lib
open List Option

namespace Trie
variable {Key Channel Value : Type} [DecidableEq Key]

def walk (trie : Trie Key Channel Value) : Nat → List Key → Option Nat
  | at_, [] => some at_
  | at_, key :: rest =>
    match trie.findMatchingNode at_ key with
    | none => none
    | some child => walk trie child rest

variable (trie : Trie Key Channel Value)

def Bare (at_ : Nat) : Prop := (trie.node at_).values = [] ∧ (trie.node at_).next = []

-- Edges and back pointers agree, so every node has one place.
structure Rooted (trie : Trie Key Channel Value) : Prop where
  linked : trie.Linked
  ordered : trie.Ordered
  forward : ∀ at_ key child, trie.findMatchingNode at_ key = some child →
    (trie.node child).prev = some at_ ∧ (trie.node child).key = some key
  named : ∀ at_ parent, (trie.node at_).prev = some parent → ∃ own, (trie.node at_).key = some own
  distinct : ∀ at_, ((trie.node at_).next.map Prod.fst).Nodup

def FullBut (spared : Nat → Prop) : Prop :=
  ∀ at_ key child, trie.findMatchingNode at_ key = some child → ¬spared child → ¬trie.Bare child

def Full : Prop := trie.FullBut fun _ => False

section Walks
variable {trie : Trie Key Channel Value}

theorem walk_cons (at_ : Nat) (key : Key) (rest : List Key) :
    trie.walk at_ (key :: rest) = (trie.findMatchingNode at_ key).bind fun child => trie.walk child rest := by
  rw [walk]
  cases trie.findMatchingNode at_ key <;> rfl

theorem walk_one (at_ : Nat) (key : Key) : trie.walk at_ [key] = trie.findMatchingNode at_ key := by
  rw [walk]
  cases trie.findMatchingNode at_ key <;> rfl

theorem walk_append (first second : List Key) : ∀ at_, trie.walk at_ (first ++ second) =
    (trie.walk at_ first).bind fun mid => trie.walk mid second := by
  induction first with
  | nil => exact fun _ => rfl
  | cons key rest ih =>
    intro at_
    rw [cons_append, walk_cons, walk_cons]
    cases trie.findMatchingNode at_ key with
    | none => rfl
    | some child => exact ih child

theorem walk_snoc (at_ target : Nat) (path : List Key) (key : Key) : trie.walk at_ (path ++ [key]) = some target ↔
      ∃ mid, trie.walk at_ path = some mid ∧ trie.findMatchingNode mid key = some target := by
  simp only [walk_append, bind_eq_some_iff, walk_one]

theorem walk_prefix {at_ target : Nat} {first second : List Key} (reached : trie.walk at_ (first ++ second) = some target) :
    ∃ middle, trie.walk at_ first = some middle := by
  rw [walk_append, bind_eq_some_iff] at reached
  exact reached.imp fun _ => And.left

theorem walk_climbs (ordered : trie.Ordered) (path : List Key) : ∀ at_ target, at_ < trie.nodes.length →
    trie.walk at_ path = some target → at_ + path.length ≤ target ∧ target < trie.nodes.length := by
  induction path with
  | nil =>
    intro at_ target inside reached
    cases reached
    exact ⟨Nat.le_refl _, inside⟩
  | cons key rest ih =>
    intro at_ target inside reached
    rw [walk_cons, bind_eq_some_iff] at reached
    obtain ⟨child, found, later⟩ := reached
    have bounds := child_bounds ordered found
    have climbs := ih child target bounds.2 later
    rw [length_cons]
    omega

theorem walk_of_edges (next : Trie Key Channel Value)
    (edges : ∀ at_ key child, trie.findMatchingNode at_ key = some child → next.findMatchingNode at_ key = some child)
    (path : List Key) : ∀ at_ target, trie.walk at_ path = some target → next.walk at_ path = some target := by
  induction path with
  | nil => exact fun _ _ reached => reached
  | cons key rest ih =>
    intro at_ target reached
    rw [walk_cons, bind_eq_some_iff] at reached
    obtain ⟨child, found, later⟩ := reached
    rw [walk_cons, edges at_ key child found]
    exact ih child target later

theorem walk_injective (rooted : trie.Rooted) (left : List Key) : ∀ (right : List Key) (target : Nat),
    trie.walk 0 left = some target → trie.walk 0 right = some target → left = right := by
  have bounds := fun path target reached => walk_climbs rooted.ordered path 0 target rooted.linked.rooted reached
  induction left using reverseRecOn with
  | nil =>
    intro right target here there
    cases here
    have short := (bounds right 0 there).1
    exact (eq_nil_of_length_eq_zero (by omega)).symm
  | append_singleton path key ih =>
    intro right target here there
    obtain ⟨mid, reached, found⟩ := (walk_snoc 0 target path key).mp here
    rcases eq_nil_or_concat' right with rfl | ⟨other, name, rfl⟩
    · cases there
      have long := (bounds (path ++ [key]) 0 here).1
      rw [length_append, length_singleton] at long
      omega
    obtain ⟨parent, arrived, edge⟩ := (walk_snoc 0 target other name).mp there
    have mine := rooted.forward mid key target found
    have theirs := rooted.forward parent name target edge
    have same : mid = parent := some.inj (mine.1.symm.trans theirs.1)
    have called : key = name := some.inj (mine.2.symm.trans theirs.2)
    rw [ih other mid reached (same ▸ arrived), called]

end Walks

def stored [DecidableEq Channel] (trie : Trie Key Channel Value) (path : List Key) (channel : Channel) : Option Value :=
  (trie.walk 0 path).bind fun at_ => trie.getValue at_ channel

-- The edges that pruning upwards cuts: each leads to a node that carries nothing.
inductive Erodes : Nat → Trie Key Channel Value → Trie Key Channel Value → Prop
  | stop (at_ : Nat) (trie : Trie Key Channel Value) : Erodes at_ trie trie
  | cut {at_ parent : Nat} {own : Key} {trie next : Trie Key Channel Value} :
      trie.findMatchingNode parent own = some at_ → trie.Bare at_ → Erodes parent (trie.cut parent at_ own) next →
      Erodes at_ trie next

def withValues (trie : Trie Key Channel Value) (at_ : Nat) (edit : Table Channel Value → Table Channel Value) :
    Trie Key Channel Value :=
  trie.modify at_ fun node => { node with values := edit node.values }

def prune (rounds : Nat) (trie : Trie Key Channel Value) (at_ : Nat) : Trie Key Channel Value :=
  if trie.prunable at_ then
    match (trie.node at_).prev, (trie.node at_).key with
    | some parent, some own => clearNode rounds trie parent own
    | _, _ => trie
  else trie

theorem clear_node_succ (rounds : Nat) {trie : Trie Key Channel Value} {at_ child : Nat} {key : Key}
    (found : trie.findMatchingNode at_ key = some child) :
    clearNode (rounds + 1) trie at_ key = prune rounds (trie.cut at_ child key) at_ := by
  rw [clearNode, found]
  rfl

theorem clear_value_prunes [DecidableEq Channel] {trie : Trie Key Channel Value} {at_ : Nat} {chan : Channel}
    {next : Trie Key Channel Value} (done : trie.clearValue at_ chan = some next) :
    next = prune trie.nodes.length (trie.withValues at_ fun values => values.clear chan) at_ := by
  unfold clearValue at done
  split at done
  · cases done
  next val occupied =>
  unfold withValues
  generalize (trie.modify at_ fun node => { node with values := node.values.clear chan }) = cleared at done ⊢
  rw [prune]
  split
  · rename_i empty
    rw [if_pos empty] at done
    cases up : (cleared.node at_).prev with
    | none =>
      rw [up] at done
      exact (some.inj done).symm
    | some parent =>
      cases own : (cleared.node at_).key with
      | none | some key =>
        rw [up, own] at done
        exact (some.inj done).symm
  · rename_i kept
    rw [if_neg kept] at done
    exact (some.inj done).symm

section Cuts
variable {trie : Trie Key Channel Value} {at_ child : Nat} {key : Key}

theorem bare_no_edge (bare : trie.Bare at_) : trie.findMatchingNode at_ key = none := by
  rw [findMatchingNode, bare.2]
  rfl

theorem rooted_cut (rooted : trie.Rooted) (found : trie.findMatchingNode at_ key = some child) :
    (trie.cut at_ child key).Rooted where
  linked := linked_cut rooted.linked found
  ordered := ordered_cut rooted.ordered
  forward := by
    intro other name target known
    rw [find_cut] at known
    split at known
    · cases known
    rename_i apart
    have fields := rooted.forward other name target known
    rw [(cut_node target).1, (cut_node target).2.1, if_neg]
    · exact fields
    · rintro rfl
      have own := rooted.forward at_ key target found
      exact apart ⟨some.inj (fields.1.symm.trans own.1), some.inj (fields.2.symm.trans own.2)⟩
  named := by
    intro other parent up
    rw [(cut_node other).1] at up
    rw [(cut_node other).2.1]
    split at up
    · cases up
    · exact rooted.named other parent up
  distinct := by
    intro other
    rw [(cut_node other).2.2.2]
    split
    · exact (rooted.distinct other).sublist (filter_sublist.map _)
    · exact rooted.distinct other

theorem walk_cut_older {path : List Key} {start target : Nat} (reached : (trie.cut at_ child key).walk start path = some target) :
    trie.walk start path = some target := by
  refine walk_of_edges trie ?_ path start target reached
  intro other name found_child known
  rw [find_cut] at known
  split at known
  · cases known
  · exact known

theorem walk_cut_kept (found : trie.findMatchingNode at_ key = some child) (bare : trie.Bare child) (path : List Key) :
    ∀ start target, trie.walk start path = some target → target ≠ child →
      (trie.cut at_ child key).walk start path = some target := by
  induction path with
  | nil => exact fun _ _ reached _ => reached
  | cons name rest ih =>
    intro start target reached apart
    rw [walk_cons, bind_eq_some_iff] at reached
    obtain ⟨middle, edge, later⟩ := reached
    rw [walk_cons, find_cut, if_neg]
    · rw [edge]
      exact ih middle target later apart
    rintro ⟨rfl, rfl⟩
    have same : child = middle := some.inj (found.symm.trans edge)
    subst same
    cases rest with
    | nil =>
      cases later
      exact apart rfl
    | cons deeper others =>
      rw [walk_cons, bare_no_edge bare] at later
      cases later

theorem get_value_cut [DecidableEq Channel] (other : Nat) (channel : Channel) :
    (trie.cut at_ child key).getValue other channel = trie.getValue other channel := by
  rw [getValue, (cut_node other).2.2.1, getValue]

end Cuts

section Erosion
variable {trie next : Trie Key Channel Value} {at_ : Nat}
variable (erodes : Erodes at_ trie next)

include erodes

theorem Erodes.rooted : trie.Rooted → next.Rooted := by
  induction erodes with
  | stop => exact id
  | cut found _ _ ih => exact fun rooted => ih (rooted_cut rooted found)

theorem Erodes.older (path : List Key) (target : Nat)
    (reached : next.walk 0 path = some target) : trie.walk 0 path = some target := by
  induction erodes with
  | stop => exact reached
  | cut _ _ _ ih => exact walk_cut_older (ih reached)

theorem Erodes.stored [DecidableEq Channel] (path : List Key) (channel : Channel) :
    next.stored path channel = trie.stored path channel := by
  induction erodes with
  | stop => rfl
  | @cut focus parent own start _ found bare _ ih =>
    rw [ih]
    unfold Trie.stored
    cases reached : start.walk 0 path with
    | none =>
      cases later : (start.cut parent focus own).walk 0 path with
      | none => rfl
      | some target =>
        rw [walk_cut_older later] at reached
        cases reached
    | some target =>
      by_cases same : target = focus
      · have empty : start.getValue target channel = none := by
          rw [same, getValue, bare.1]
          rfl
        cases later : (start.cut parent focus own).walk 0 path with
        | none => exact empty.symm
        | some other =>
          have known := walk_cut_older later
          rw [reached] at known
          cases known
          exact get_value_cut target channel
      · rw [walk_cut_kept found bare path 0 target reached same]
        exact get_value_cut target channel

theorem Erodes.kept : trie.Rooted → ∀ (focus path : List Key) (target : Nat),
    trie.walk 0 focus = some at_ → trie.walk 0 path = some target → ¬path <+: focus → next.walk 0 path = some target := by
  induction erodes with
  | stop => exact fun _ _ _ _ _ reached _ => reached
  | @cut node parent own start _ found bare _ ih =>
    intro rooted focus path target there reached aside
    have apart : target ≠ node := by
      rintro rfl
      exact aside (walk_injective rooted path focus target reached there ▸ prefix_refl _)
    rcases eq_nil_or_concat' focus with rfl | ⟨before, last, rfl⟩
    · cases there
      have climbs := (child_bounds rooted.ordered found).1
      omega
    obtain ⟨mid, arrived, edge⟩ := (walk_snoc 0 node before last).mp there
    have up : mid = parent :=
      some.inj ((rooted.forward mid last node edge).1.symm.trans (rooted.forward parent own node found).1)
    subst up
    have nodup : mid ≠ node := Nat.ne_of_lt (child_bounds rooted.ordered found).1
    refine ih (rooted_cut rooted found) before path target
      (walk_cut_kept found bare before 0 mid arrived nodup)
      (walk_cut_kept found bare path 0 target reached apart) fun inside => ?_
    exact aside (inside.trans (prefix_append before [last]))

end Erosion

section Pruning

theorem prune_erodes (rounds : Nat) : ∀ (trie : Trie Key Channel Value) (at_ : Nat), trie.Rooted →
    Erodes at_ trie (prune rounds trie at_) := by
  induction rounds with
  | zero =>
    intro trie at_ _
    rw [prune]
    split
    · split
      · exact Erodes.stop at_ trie
      · exact Erodes.stop at_ trie
    · exact Erodes.stop at_ trie
  | succ rounds ih =>
    intro trie at_ rooted
    rw [prune]
    split
    · rename_i empty
      split
      · rename_i parent own up named
        have found := rooted.linked.back at_ parent own up named
        rw [clear_node_succ rounds found]
        simp only [prunable, Bool.and_eq_true, List.isEmpty_iff] at empty
        exact Erodes.cut found ⟨empty.1.2, empty.2⟩ (ih _ parent (rooted_cut rooted found))
      · exact Erodes.stop at_ trie
    · exact Erodes.stop at_ trie

omit [DecidableEq Key] in
theorem parent_of_prunable {trie : Trie Key Channel Value} {at_ : Nat} (empty : trie.prunable at_ = true) :
    ∃ parent, (trie.node at_).prev = some parent := by
  simp only [prunable, Bool.and_eq_true] at empty
  exact isSome_iff_exists.mp empty.1.1

variable (spared : Nat → Prop)

theorem full_of_not_prunable {trie : Trie Key Channel Value} {at_ : Nat} (rooted : trie.Rooted)
    (full : trie.FullBut fun child => child = at_ ∨ spared child) (kept : ¬trie.prunable at_ = true) : trie.FullBut spared := by
  intro other key child found apart bare
  by_cases same : child = at_
  · subst same
    apply kept
    simp [prunable, (rooted.forward other key child found).1, bare.1, bare.2]
  · exact full other key child found (not_or.mpr ⟨same, apart⟩) bare

theorem full_but_cut {trie : Trie Key Channel Value} {at_ child : Nat} {key : Key} (rooted : trie.Rooted)
    (found : trie.findMatchingNode at_ key = some child) (full : trie.FullBut fun node => node = child ∨ spared node) :
    (trie.cut at_ child key).FullBut fun node => node = at_ ∨ spared node := by
  intro other name target known apart bare
  obtain ⟨aside, unspared⟩ := not_or.mp apart
  rw [find_cut] at known
  split at known
  · cases known
  rename_i ne
  have fresh : target ≠ child := by
    rintro rfl
    have mine := rooted.forward at_ key target found
    have theirs := rooted.forward other name target known
    exact ne ⟨some.inj (theirs.1.symm.trans mine.1), some.inj (theirs.2.symm.trans mine.2)⟩
  refine full other name target known (not_or.mpr ⟨fresh, unspared⟩) ⟨?_, ?_⟩
  · rw [← bare.1, (cut_node target).2.2.1]
  · have edges := bare.2
    rw [(cut_node target).2.2.2, if_neg aside] at edges
    exact edges

-- The rounds suffice: every parent is older than its child.
theorem prune_full (rounds : Nat) : ∀ (trie : Trie Key Channel Value) (at_ : Nat), trie.Rooted →
    (trie.FullBut fun node => node = at_ ∨ spared node) → at_ ≤ rounds → (prune rounds trie at_).FullBut spared := by
  induction rounds with
  | zero =>
    intro trie at_ rooted full small
    by_cases empty : trie.prunable at_ = true
    · obtain ⟨parent, up⟩ := parent_of_prunable empty
      obtain ⟨own, named⟩ := rooted.named at_ parent up
      have bounds := child_bounds rooted.ordered (rooted.linked.back at_ parent own up named)
      omega
    · rw [prune, if_neg empty]
      exact full_of_not_prunable spared rooted full empty
  | succ rounds ih =>
    intro trie at_ rooted full small
    by_cases empty : trie.prunable at_ = true
    · obtain ⟨parent, up⟩ := parent_of_prunable empty
      obtain ⟨own, named⟩ := rooted.named at_ parent up
      have found := rooted.linked.back at_ parent own up named
      have bounds := child_bounds rooted.ordered found
      rw [prune, if_pos empty, up, named]
      dsimp only
      rw [clear_node_succ rounds found]
      exact ih _ parent (rooted_cut rooted found)
        (full_but_cut spared rooted found full) (by omega)
    · rw [prune, if_neg empty]
      exact full_of_not_prunable spared rooted full empty

end Pruning
end Trie
end TrtLlm.Lib
